import LineAssembly.Fault
import LineAssembly.Instruction.Arity
import LineAssembly.Instruction.Script
import LineAssembly.Table

/-! # Instructions

An instruction is a name, the number of arguments it takes, and a body: one of the standard operations
or a host's script.
-/

set_option autoImplicit false

namespace LineAssembly

inductive Operation where
  | nop
  | set
  | add
  | sub
  | mul
  | jmp
  | jv
  | jz
  | jnz
  | print
  | halt
deriving DecidableEq, Repr

inductive Body where
  | standard (operation : Operation)
  | script (steps : Script)

structure Instruction where
  name : String
  arity : Arity
  body : Body

namespace Instruction

/-- A declared instruction, once its name, its body and its bounds are found in order. Bounds that
cannot be written cannot be named in a fault either. -/
def ofDeclaration (d : Declaration Script) : Except Fault Instruction :=
  if d.name = "" then .error .instructionUnnamed
  else match d.body with
    | none => .error (.instructionWithoutBody d.name)
    | some steps =>
      if d.least < 0 then .error (.negativeLeast d.name)
      else match d.most with
        | none => .ok ⟨d.name, Arity.atLeast d.least.toNat, .script steps⟩
        | some most =>
          if h : most < d.least then
            if Numeral.IsWritable most ∧ Numeral.IsWritable d.least then
              .error (.mostBelowLeast d.name most d.least)
            else .error .integerUnwritable
          else .ok ⟨d.name, Arity.between d.least.toNat most.toNat (by omega), .script steps⟩

def ofDeclarations : List (Declaration Script) → Except Fault (List Instruction)
  | [] => .ok []
  | d :: rest =>
    match ofDeclaration d with
    | .error fault => .error fault
    | .ok i =>
      match ofDeclarations rest with
      | .error fault => .error fault
      | .ok is => .ok (i :: is)

end Instruction

abbrev InstructionSet := Table Instruction

namespace InstructionSet

/-- The set with one more instruction. A name is never given twice. -/
def add (set : InstructionSet) (i : Instruction) : Except Fault InstructionSet :=
  if set.has i.name then .error (.instructionExists i.name) else .ok (set.put i.name i)

def instructions (set : InstructionSet) : List Instruction :=
  set.map Prod.snd

end InstructionSet

namespace Instruction

def standard : List Instruction :=
  [⟨"NOP", Arity.exactly 0, .standard .nop⟩,
   ⟨"SET", Arity.exactly 2, .standard .set⟩,
   ⟨"ADD", Arity.between 2 3 (by decide), .standard .add⟩,
   ⟨"SUB", Arity.between 2 3 (by decide), .standard .sub⟩,
   ⟨"MUL", Arity.between 2 3 (by decide), .standard .mul⟩,
   ⟨"JMP", Arity.exactly 1, .standard .jmp⟩,
   ⟨"JV", Arity.exactly 1, .standard .jv⟩,
   ⟨"JZ", Arity.exactly 2, .standard .jz⟩,
   ⟨"JNZ", Arity.exactly 2, .standard .jnz⟩,
   ⟨"PRINT", Arity.atLeast 0, .standard .print⟩,
   ⟨"HALT", Arity.exactly 0, .standard .halt⟩]

end Instruction

end LineAssembly
