import LineAssembly.Machine.Basic
import LineAssembly.Source.Reading

/-! # Reading a source on a machine

Reading freezes the machine, replaces its labels and records the errors of the source. No error of a
source halts the machine.
-/

set_option autoImplicit false

namespace LineAssembly.Machine

def note (m : Machine) : Note → Machine
  | .error d => m.report d false
  | .trace t => m.trace t

def apply (m : Machine) (r : Reading) : Machine :=
  r.notes.foldl note { m with frozen := true, labels := Table.putAll [] r.bindings }

def scan (m : Machine) (source : String) : Machine × Except Fault (List Token) :=
  let r := Reading.ofSource m.instructions.has source
  (m.apply r,
    match r.fault? with
    | some fault => .error fault
    | none => .ok r.tokens)

/-- A source is read and its tokens become the loaded program; after a fault there is none. -/
def load (m : Machine) (source : String) : Machine × Except Fault (List Token) :=
  match m.scan source with
  | (m, .ok tokens) => ({ m with program := tokens }, .ok tokens)
  | (m, .error fault) => ({ m with program := [] }, .error fault)

end LineAssembly.Machine
