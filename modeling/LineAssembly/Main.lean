import LineAssembly.CommandLine.Program

/-! # The executable

Reads the named file, then runs the program step by step and writes what it says as it says it.
-/

set_option autoImplicit false

namespace LineAssembly.Main

open CommandLine

def openFile (name : String) : IO (Except OpenError ByteArray) := do
  if name.contains '\x00' then
    return .error .nullCharacter
  try
    return .ok (← IO.FS.readBinFile name)
  catch
    | .noFileOrDirectory .. => return .error .notFound
    | .inappropriateType .. => return .error .isFolder
    | .permissionDenied .. => return .error (.system 13 "Permission denied")
    | other => return .error (.system 5 other.toString)

def write (t : Transcript) : IO Unit := do
  (← IO.getStdout).putStr t.stdout
  (← IO.getStderr).putStr t.stderr

def exitCode (ending : Ending) : IO UInt32 :=
  match ending with
  | .exit code => return code.toUInt32
  | .failed failure => do
    (← IO.getStderr).putStrLn failure.message
    return 1

def written (m : Machine) : Machine :=
  { m with journal := #[] }

/-- Steps a run to its end, writing what each step journals. -/
partial def follow (options : Options) (program : Array Token) (r : Run) :
    IO (Machine × Except Fault Unit) := do
  match r.step program with
  | .ended m result => return (m, result)
  | .next r =>
    write (Transcript.ofEvents options.verbose r.machine.journal.toList)
    follow options program { r with machine := written r.machine }

def conclude (ready : Ready) (m : Machine) (result : Except Fault Unit) : IO UInt32 := do
  let outcome := { ready with written := {}, machine := written m }.finish m result
  write outcome.transcript
  exitCode outcome.ending

end LineAssembly.Main

open LineAssembly LineAssembly.Main LineAssembly.CommandLine in
def main (arguments : List String) : IO UInt32 := do
  let content ←
    match Options.parse arguments with
    | .ok options => if options.literal then pure (.error .notFound) else openFile options.program
    | .error _ => pure (.error .notFound)
  match start (fun _ => content) arguments with
  | .error outcome => do
    write outcome.transcript
    exitCode outcome.ending
  | .ok ready => do
    write ready.written
    if ready.machine.errorCount = 0 then
      let run := (written ready.machine).start
      let (m, result) ← follow ready.options ready.tokens.toArray run
      conclude ready m result
    else conclude ready (written ready.machine) (.ok ())
