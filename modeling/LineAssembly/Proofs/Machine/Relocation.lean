import LineAssembly.Proofs.Machine.Steps

/-! # Labels at other indices

When every label is moved by a function on token indices, a standard instruction does what it did before,
and a jump to a label goes to the moved index. Token indices come from labels only, except where a program
gives one to jump to, so nothing else of the machine changes.
-/

set_option autoImplicit false

namespace LineAssembly

/-- The same effect, with its jump sent elsewhere. -/
def Effect.relocate (f : Nat → Nat) : Effect → Effect
  | .goto index => .goto (f index)
  | e => e

namespace Effect

variable {registers : Table Value} {labels moved : Table Nat} {f : Nat → Nat}

theorem settle_map_relocate (x : Except Diagnostic Effect) :
    settle (x.map (relocate f)) = (settle x).relocate f := by
  cases x <;> rfl

theorem relocate_assignment (target v : Value) :
    (settle (assignment registers target v)).relocate f = settle (assignment registers target v) := by
  rw [assignment]
  cases target.target registers with
  | error d => rfl
  | ok name => cases v.found registers <;> rfl

theorem relocate_arithmetic (op : Int → Int → Int) (target left right : Value) :
    (settle (arithmetic registers op target left right)).relocate f =
      settle (arithmetic registers op target left right) := by
  rw [arithmetic]
  cases left.integer registers with
  | error d => rfl
  | ok a =>
    cases right.integer registers with
    | error d => rfl
    | ok b => cases target.target registers <;> rfl

theorem relocate_printing (arguments : List Value) :
    (settle (printing registers arguments)).relocate f = settle (printing registers arguments) := by
  rw [printing]
  cases texts registers arguments <;> rfl

variable (hlabels : ∀ name, moved.get? name = (labels.get? name).map f)

include hlabels

theorem toLabel_relocate (v : Value) :
    toLabel registers moved v = (toLabel registers labels v).map (relocate f) := by
  rw [toLabel, toLabel]
  rcases v.resolve registers with _ | (n | name | name | _)
  case some.label =>
    simp only [hlabels]
    cases labels.get? name <;> rfl
  all_goals rfl

theorem conditional_relocate (condition : Int → Bool) (operand label : Value) :
    conditional registers moved condition operand label =
      (conditional registers labels condition operand label).map (relocate f) := by
  rw [conditional, conditional, toLabel_relocate hlabels]
  cases operand.integer registers with
  | error d => rfl
  | ok n =>
    change (if condition n then (toLabel registers labels label).map (relocate f) else .ok .pass) =
      Except.map (relocate f) (if condition n then toLabel registers labels label else .ok .pass)
    split <;> rfl

end Effect

section Instruction

variable {registers : Table Value} {labels moved : Table Nat} {f : Nat → Nat}

theorem Operation.effect_relocate (hlabels : ∀ name, moved.get? name = (labels.get? name).map f)
    {operation : Operation} (hjv : operation ≠ .jv) (arguments : List Value) :
    operation.effect registers moved arguments =
      (operation.effect registers labels arguments).map (Effect.relocate f) := by
  fun_cases Operation.effect registers labels operation arguments
  case case1 | case14 => rfl
  case case2 => exact congrArg some (Effect.relocate_assignment ..).symm
  case case9 =>
    rw [Operation.effect, Effect.toLabel_relocate hlabels, Effect.settle_map_relocate]
    rfl
  case case10 => exact absurd rfl hjv
  case case11 | case12 =>
    rw [Operation.effect, Effect.conditional_relocate hlabels, Effect.settle_map_relocate]
    rfl
  case case13 => exact congrArg some (Effect.relocate_printing ..).symm
  case case15 => simp_all [Operation.effect]
  all_goals exact congrArg some (Effect.relocate_arithmetic ..).symm

/-- The one standard instruction that is left out jumps to an index which the program gives. -/
theorem Instruction.effect_relocate {i : Instruction} (hi : i ∈ standard) (hjv : i.name ≠ "JV")
    (hlabels : ∀ name, moved.get? name = (labels.get? name).map f) (arguments : List Value) :
    i.effect registers moved arguments = (i.effect registers labels arguments).relocate f := by
  obtain ⟨operation, hbody, -⟩ := exists_operation_of_mem_standard hi
  have hoperation : operation ≠ .jv := by
    rintro rfl
    exact hjv ((body_iff_name hi).2.mp hbody)
  simp only [effect, hbody, Operation.effect_relocate hlabels hoperation]
  split
  · cases operation.effect registers labels arguments <;> rfl
  · rfl

end Instruction

end LineAssembly
