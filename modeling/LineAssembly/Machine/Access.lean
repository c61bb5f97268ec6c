import LineAssembly.Machine.Basic

/-! # Reading, writing and jumping

Each operation succeeds without a report, or reports one halting error and changes nothing else. A
reference to a register is followed once. An error about an integer that cannot be written is not
reported but is a fault.
-/

set_option autoImplicit false

namespace LineAssembly

/-- The value behind a reference; any other value stands for itself. -/
def Value.resolve (registers : Table Value) : Value → Option Value
  | .register name => registers.get? name
  | v => some v

namespace Machine

def read (m : Machine) (v : Value) : Machine × Option Value :=
  match v.resolve m.registers with
  | none => (m.report (.undefinedRegister v) true, none)
  | some found => (m, some found)

def readInt (m : Machine) (v : Value) : Machine × Option Int :=
  match m.read v with
  | (m, none) => (m, none)
  | (m, some (.int n)) => (m, some n.toInt)
  | (m, some other) => (m.report (.notInteger other) true, none)

/-- Whether a value names a declared register, and the report when it does not. -/
def destination (m : Machine) (target : Value) : Except Diagnostic String :=
  match target with
  | .register name =>
    if m.registers.has name then .ok name else .error (.undefinedRegister target)
  | _ => .error (.notDestination target)

/-- The once-resolved value is stored in the register that the target names. -/
def write (m : Machine) (target v : Value) : Machine × Bool :=
  match m.destination target with
  | .error d => (m.report d true, false)
  | .ok name =>
    match m.read v with
    | (m, none) => (m, false)
    | (m, some found) => ({ m with registers := m.registers.put name found }, true)

/-- An integer of any size is stored if it is in the signed 32-bit range. -/
def writeInt (m : Machine) (target : Value) (n : Int) : Machine × Except Fault Bool :=
  match m.destination target with
  | .error d => (m.report d true, .ok false)
  | .ok name =>
    match Value.ofInt? n with
    | none => answering (fun _ => false) (m.reportShowing [n] (.integerOutOfRange n))
    | some v => ({ m with registers := m.registers.put name v }, .ok true)

/-- A register takes a value without any check, even a new name or a reference. -/
def assign (m : Machine) (name : String) (v : Value) : Machine :=
  { m with registers := m.registers.put name v }

def moveTo (m : Machine) (index : Nat) : Machine :=
  { m.trace (.jumped m.cursor index) with cursor := index, jumped := true }

def jump (m : Machine) (index : Int) : Machine × Except Fault Unit :=
  if index < 0 then m.reportShowing [index] (.negativeDestination index)
  else (m.moveTo index.toNat, .ok ())

def jumpToValue (m : Machine) (v : Value) : Machine :=
  match v.resolve m.registers with
  | some (.int n) =>
    if 0 ≤ n.toInt then m.moveTo n.toInt.toNat else m.report (.invalidDestination v) true
  | _ => m.report (.invalidDestination v) true

def jumpToLabel (m : Machine) (v : Value) : Machine :=
  match v.resolve m.registers with
  | some (.label name) =>
    match m.labels.get? name with
    | some index => m.moveTo index
    | none => m.report (.invalidLabel v) true
  | _ => m.report (.invalidLabel v) true

end Machine

end LineAssembly
