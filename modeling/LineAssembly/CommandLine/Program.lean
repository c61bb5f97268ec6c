import LineAssembly.CommandLine.File
import LineAssembly.CommandLine.Usage
import LineAssembly.Machine.Run

/-! # The command line program

The program takes its options, reads its source, declares the registers, reads and runs the source on a
machine with the standard instructions, and ends with an exit code. Diagnostics, output and state lines
go to the standard output in the order they arise; debug records and refusals go to the standard error.
-/

set_option autoImplicit false

namespace LineAssembly.CommandLine

/-- A fault that ends the program without an exit code. -/
inductive Failure where
  | nullCharacter
  | encoding (fault : Text.Utf8.Fault)
  | machine (fault : Fault)
deriving DecidableEq, Repr

def encodingMessage (f : Text.Utf8.Fault) : String :=
  if f.size = 1 then
    let byte := String.ofList (Text.hexadecimal 2 f.lead.toNat)
    s!"'utf-8' codec can't decode byte 0x{byte} in position {f.start}: {f.reason.text}"
  else
    s!"'utf-8' codec can't decode bytes in position {f.start}-{f.start + f.size - 1}: {f.reason.text}"

def Failure.message : Failure → String
  | .nullCharacter => "embedded null byte"
  | .encoding fault => encodingMessage fault
  | .machine fault => fault.message

inductive Ending where
  | exit (code : Nat)
  | failed (failure : Failure)
deriving DecidableEq, Repr

structure Transcript where
  stdout : String := ""
  stderr : String := ""
deriving DecidableEq, Repr

namespace Transcript

def append (a b : Transcript) : Transcript :=
  ⟨a.stdout ++ b.stdout, a.stderr ++ b.stderr⟩

instance : Append Transcript := ⟨append⟩

def ofStdout (text : String) : Transcript := { stdout := text }

def ofStderr (text : String) : Transcript := { stderr := text }

def traceLine (t : Trace) : String :=
  s!"{t.origin}: {t.message}\n"

/-- What an event writes; debug records only when they are asked for. -/
def ofEvent (verbose : Bool) (e : Event) : Transcript :=
  { stdout := ((e.line?).map (· ++ "\n")).getD ""
    stderr := if verbose then ((e.trace?).map traceLine).getD "" else "" }

def ofEvents (verbose : Bool) (events : List Event) : Transcript :=
  events.foldl (fun t e => t ++ ofEvent verbose e) {}

end Transcript

structure Outcome where
  transcript : Transcript
  ending : Ending
deriving DecidableEq, Repr

def Options.sourceText (o : Options) (open? : String → Except OpenError ByteArray) :
    Except Outcome String :=
  if o.literal then .ok o.program
  else match open? o.program with
    | .error .nullCharacter => .error ⟨{}, .failed .nullCharacter⟩
    | .error (.system code description) =>
      .error ⟨.ofStderr (openMessage o.program code description), .exit 1⟩
    | .ok bytes =>
      match decodeSource bytes with
      | .error fault => .error ⟨{}, .failed (.encoding fault)⟩
      | .ok source => .ok source

structure Ready where
  options : Options
  written : Transcript
  machine : Machine
  tokens : List Token

def Options.writtenSince (o : Options) (before : Nat) (m : Machine) : Transcript :=
  Transcript.ofEvents o.verbose (m.journal.toList.drop before)

/-- Registers declared one after the other. A flag that names none is a fault when its turn comes. -/
def declareRegisters : List (Option String) → Machine → Except Fault Machine
  | [], m => .ok m
  | none :: _, _ => .error .registerUnnamed
  | some name :: rest, m =>
    match m.insertRegister name with
    | .error fault => .error fault
    | .ok m => declareRegisters rest m

def Options.machine (o : Options) : Except Outcome Machine :=
  match declareRegisters o.registers {} with
  | .error fault => .error ⟨.ofStderr s!"error: {fault.message}\n", .exit 1⟩
  | .ok m =>
    match m.insertInstructions Instruction.standard with
    | (_, .error fault) => .error ⟨{}, .failed (.machine fault)⟩
    | (m, .ok ()) => .ok m

/-- The outcome of a fault in reading a source. A quoted argument is refused; any other fault ends the
program. -/
def readingFailed (written : Transcript) : Fault → Outcome
  | .quotedArgument line word =>
    let message := (Fault.quotedArgument line word).message
    ⟨written ++ .ofStderr s!"error: {message}\n", .exit 1⟩
  | fault => ⟨written, .failed (.machine fault)⟩

def Options.prepare (o : Options) (m : Machine) (source : String) : Except Outcome Ready :=
  match m.scan source with
  | (m, .error fault) => .error (readingFailed (o.writtenSince 0 m) fault)
  | (m, .ok tokens) =>
    let written := o.writtenSince 0 m
    if o.listing then
      match Listing.text tokens (Listing.ofTable m.labels) with
      | .error fault => .error ⟨written, .failed (.machine fault)⟩
      | .ok text => .ok ⟨o, written ++ .ofStdout text, m, tokens⟩
    else .ok ⟨o, written, m, tokens⟩

def start (open? : String → Except OpenError ByteArray) (arguments : List String) :
    Except Outcome Ready :=
  match Options.parse arguments with
  | .error .help => .error ⟨.ofStdout help, .exit 0⟩
  | .error (.usage e) => .error ⟨.ofStderr (usageError e), .exit 2⟩
  | .ok o =>
    match o.sourceText open? with
    | .error outcome => .error outcome
    | .ok source =>
      match o.machine with
      | .error outcome => .error outcome
      | .ok m => o.prepare m source

namespace Ready

def finish (r : Ready) (m : Machine) : Except Fault Unit → Outcome
  | .error fault =>
    ⟨r.written ++ r.options.writtenSince r.machine.journal.size m, .failed (.machine fault)⟩
  | .ok () =>
    let m := if r.options.dump then m.dump else m
    ⟨r.written ++ r.options.writtenSince r.machine.journal.size m,
      .exit (if m.errorCount = 0 then 0 else 1)⟩

/-- The program is run unless its source had errors. -/
def outcome (fuel : Nat) (r : Ready) : Option Outcome :=
  if r.machine.errorCount = 0 then
    (r.machine.run fuel r.tokens).map fun ended => r.finish ended.1 ended.2
  else some (r.finish r.machine (.ok ()))

end Ready

def run (fuel : Nat) (open? : String → Except OpenError ByteArray) (arguments : List String) :
    Option Outcome :=
  match start open? arguments with
  | .error outcome => some outcome
  | .ok ready => ready.outcome fuel

end LineAssembly.CommandLine
