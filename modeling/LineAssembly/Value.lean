/-! # Values

What a register holds and what an instruction is given: a signed 32-bit integer, a label, a reference
to a register, or nothing yet.
-/

set_option autoImplicit false

namespace LineAssembly

inductive Value where
  | int (n : Int32)
  | label (name : String)
  | register (name : String)
  | empty
deriving DecidableEq, Repr, Inhabited

namespace Value

def leastInt : Int := -0x80000000

def greatestInt : Int := 0x7FFFFFFF

/-- The integer of the signed 32-bit range that is congruent to `n` modulo `2 ^ 32`. -/
def wrap (n : Int) : Int :=
  n.bmod 0x100000000

theorem wrap_congr (n : Int) : (wrap n - n) % 0x100000000 = 0 := by
  simp only [wrap, Int.bmod]
  split <;> omega

theorem wrap_inRange (n : Int) : leastInt ≤ wrap n ∧ wrap n ≤ greatestInt := by
  simp only [wrap, Int.bmod, leastInt, greatestInt]
  split <;> omega

def ofInt? (n : Int) : Option Value :=
  if leastInt ≤ n ∧ n ≤ greatestInt then some (.int (Int32.ofInt n)) else none

theorem toInt_inRange (n : Int32) : leastInt ≤ n.toInt ∧ n.toInt ≤ greatestInt :=
  ⟨n.le_toInt, Int.le_of_lt_add_one n.toInt_lt⟩

theorem toInt_ofInt {n : Int} (h : leastInt ≤ n ∧ n ≤ greatestInt) : (Int32.ofInt n).toInt = n := by
  obtain ⟨hleast, hgreatest⟩ := h
  rw [greatestInt] at hgreatest
  exact Int32.toInt_ofInt_of_le hleast (by omega)

def text : Value → String
  | .int n => toString n.toInt
  | .label name => name
  | .register name => s!"[{name}]"
  | .empty => "EMPTY"

def kindName : Value → String
  | .int _ => "integer"
  | .label _ => "label"
  | .register _ => "register"
  | .empty => "empty"

def described (v : Value) : String :=
  s!"{v.kindName} {v.text}"

end Value

end LineAssembly
