import LineAssembly.Machine.Execute

/-! # Running a program

A run takes one token at a time. A mnemonic becomes pending, operands are collected behind it, and the
end of the statement executes it. Then the cursor moves on, unless a jump has placed it. A halting error
about a token leaves the cursor at that token, and the run ends at the next look at the machine. A run
need not end, so it is given a number of steps to take.
-/

set_option autoImplicit false

namespace LineAssembly

/-- A run between two tokens: the machine, the pending instruction and the operands behind it. -/
structure Run where
  machine : Machine
  pending : Option Instruction := none
  operands : List Value := []

inductive Progress where
  | next (run : Run)
  | ended (machine : Machine) (result : Except Fault Unit)

namespace Machine

def advance (m : Machine) : Machine :=
  { m with cursor := m.cursor + 1 }

def tokenError (m : Machine) (error : TokenError) (halting : Bool) : Machine :=
  m.report (.token m.cursor error) halting

end Machine

namespace Run

def take (r : Run) (token : Token) : Progress :=
  let m := { r.machine with jumped := false }
  match token, r.pending with
  | .instruction name, some pending =>
    .next { r with machine := m.tokenError (.clash name pending.name) true }
  | .instruction name, none =>
    match m.instructions.get? name with
    | none => .next { r with machine := m.tokenError (.unknownInstruction name) true }
    | some i => .next ⟨m.advance, some i, []⟩
  | .value v, none => .next { r with machine := m.tokenError (.strayValue v) true }
  | .value v, some _ => .next { r with machine := m.advance, operands := r.operands ++ [v] }
  | .register name, none =>
    .next { r with machine := (m.tokenError (.strayRegister name) false).advance }
  | .register name, some _ =>
    if m.registers.has name then
      .next { r with machine := m.advance, operands := r.operands ++ [.register name] }
    else .next { r with machine := m.tokenError (.undeclaredRegister name) true }
  | .statementEnd, none => .next { r with machine := m.advance }
  | .statementEnd, some i =>
    match m.execute i r.operands with
    | (m, .error fault) => .ended m (.error fault)
    | (m, .ok ()) => .next ⟨if m.jumped then m else m.advance, none, []⟩

/-- One step. A run ends when its cursor is past the program or its machine is halted. -/
def step (program : Array Token) (r : Run) : Progress :=
  match program[r.machine.cursor]? with
  | none => .ended r.machine (.ok ())
  | some token => if r.machine.halted then .ended r.machine (.ok ()) else r.take token

/-- At most `fuel` steps; there is no answer if the run goes on after them. -/
def upTo (program : Array Token) : Nat → Run → Option (Machine × Except Fault Unit)
  | 0, _ => none
  | fuel + 1, r =>
    match r.step program with
    | .ended m result => some (m, result)
    | .next r => upTo program fuel r

end Run

namespace Machine

def start (m : Machine) : Run :=
  { machine := { m with frozen := true, cursor := 0 } }

def run (fuel : Nat) (m : Machine) (tokens : List Token) : Option (Machine × Except Fault Unit) :=
  Run.upTo tokens.toArray fuel m.start

/-- A source is read, and run unless the reading reported an error. -/
def interpret (fuel : Nat) (m : Machine) (source : String) : Option (Machine × Except Fault Unit) :=
  match m.scan source with
  | (scanned, .error fault) => some (scanned, .error fault)
  | (scanned, .ok tokens) =>
    if m.errorCount < scanned.errorCount then
      some (scanned.trace (.notRun (scanned.errorCount - m.errorCount)), .ok ())
    else scanned.run fuel tokens

end Machine

def interpret (fuel : Nat) (source : String) (registers : List String)
    (instructions : List Instruction) : Option (Machine × Except Fault Unit) :=
  match ({} : Machine).insertRegisters registers with
  | (m, .error fault) => some (m, .error fault)
  | (m, .ok ()) =>
    match m.insertInstructions instructions with
    | (m, .error fault) => some (m, .error fault)
    | (m, .ok ()) => m.interpret fuel source

end LineAssembly
