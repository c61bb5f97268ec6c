import LineAssembly.Machine.Basic
import LineAssembly.Text.Alphanumeric

/-! # Declaring registers and instructions

Registers and instructions are only ever added, each name once, and only until the machine is frozen.
-/

set_option autoImplicit false

namespace LineAssembly.Machine

def insertRegister (m : Machine) (name : String) : Except Fault Machine :=
  if m.frozen then .error .frozen
  else if !Text.isName name.toList then .error (.registerName name)
  else if m.registers.has name then .error (.registerExists name)
  else .ok { m with registers := m.registers.put name .empty }

def insertRegisters : Machine → List String → Machine × Except Fault Unit
  | m, [] => (m, .ok ())
  | m, name :: rest =>
    match m.insertRegister name with
    | .error fault => (m, .error fault)
    | .ok m => m.insertRegisters rest

def insertInstruction (m : Machine) (i : Instruction) : Except Fault Machine :=
  if m.frozen then .error .frozen
  else match m.instructions.add i with
    | .error fault => .error fault
    | .ok set => .ok { m with instructions := set }

def insertInstructions : Machine → List Instruction → Machine × Except Fault Unit
  | m, [] => (m, .ok ())
  | m, i :: rest =>
    match m.insertInstruction i with
    | .error fault => (m, .error fault)
    | .ok m => m.insertInstructions rest

def standard : Machine :=
  (({} : Machine).insertInstructions Instruction.standard).1

end LineAssembly.Machine
