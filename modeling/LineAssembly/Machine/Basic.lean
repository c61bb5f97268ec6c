import LineAssembly.Event
import LineAssembly.Instruction.Basic

/-! # Machines

A machine holds declared registers and instructions, the labels of the program it last read, a cursor
into the program it runs, and its records. The journal receives every event in order and is never
cleared; a reset clears the records of diagnostics and output only.
-/

set_option autoImplicit false

namespace LineAssembly

structure Machine where
  registers : Table Value := []
  instructions : InstructionSet := []
  labels : Table Nat := []
  cursor : Nat := 0
  halted : Bool := false
  /-- Set by the first reading or run, for good. -/
  frozen : Bool := false
  /-- Set by a jump; the run loop then leaves the cursor where the jump put it. -/
  jumped : Bool := false
  errorCount : Nat := 0
  diagnostics : Array Diagnostic := #[]
  output : Array String := #[]
  journal : Array Event := #[]
  program : List Token := []

namespace Machine

def log (m : Machine) (event : Event) : Machine :=
  { m with journal := m.journal.push event }

def trace (m : Machine) (t : Trace) : Machine :=
  m.log (.traced t)

/-- An error of the program is recorded and counted; a halting one also stops the machine. -/
def report (m : Machine) (d : Diagnostic) (halting : Bool) : Machine :=
  let reported :=
    { m with
      diagnostics := m.diagnostics.push d
      journal := m.journal.push (.diagnosed d)
      errorCount := m.errorCount + 1 }
  if halting then ({ reported with halted := true }).trace (.halted m.cursor d) else reported

/-- A halting error whose message shows integers. When one of them cannot be written there is no
message: nothing is recorded, and that is a fault. -/
def reportShowing (m : Machine) (integers : List Int) (d : Diagnostic) :
    Machine × Except Fault Unit :=
  if ∀ n ∈ integers, Numeral.IsWritable n then (m.report d true, .ok ())
  else (m, .error .integerUnwritable)

/-- What came of an operation, with another answer in place of its own. -/
def answering {α β : Type} (answer : α → β) (result : Machine × Except Fault α) :
    Machine × Except Fault β :=
  (result.1, result.2.map answer)

def halt (m : Machine) : Machine :=
  { m with halted := true }

def emit (m : Machine) (text : String) : Machine :=
  { m with output := m.output.push text, journal := m.journal.push (.emitted text) }

def stateLines (m : Machine) : List String :=
  "== MACHINE STATE DUMP BEGIN ==" ::
    (m.registers.map fun r => s!"REGISTER {r.1} is {r.2.text}") ++
    (m.instructions.map fun i => s!"FOUND INSTRUCTION: {i.1}") ++
    ["== MACHINE STATE DUMP END =="]

/-- The state lines go to the audience of diagnostics, and are not kept. -/
def dump (m : Machine) : Machine :=
  m.stateLines.foldl (fun m line => m.log (.dumped line)) m

/-- Registers are emptied, labels and records cleared, and the machine is ready at index 0. The
configuration stays as it is, and so does the frozen mark. -/
def reset (m : Machine) : Machine :=
  { m with
    registers := m.registers.fill .empty
    labels := []
    cursor := 0
    halted := false
    errorCount := 0
    diagnostics := #[]
    output := #[]
    journal := m.journal.push .cleared }

end Machine

end LineAssembly
