/-! # Argument counts -/

set_option autoImplicit false

namespace LineAssembly

/-- How many arguments an instruction takes. Without `most` there is no upper bound. -/
structure Arity where
  least : Nat
  most : Option Nat
  least_le_most : ∀ n ∈ most, least ≤ n
deriving DecidableEq, Repr

namespace Arity

def exactly (n : Nat) : Arity :=
  ⟨n, some n, by simp⟩

def between (least most : Nat) (h : least ≤ most) : Arity :=
  ⟨least, some most, by simpa using h⟩

def atLeast (n : Nat) : Arity :=
  ⟨n, none, by simp⟩

def accepts (a : Arity) (count : Int) : Bool :=
  decide ((a.least : Int) ≤ count) && a.most.all (fun n => decide (count ≤ (n : Int)))

/-- The bounds, the upper one only if there is one. -/
def bounds (a : Arity) : List Int :=
  (a.least : Int) :: a.most.toList.map Int.ofNat

def text (a : Arity) : String :=
  match a.most with
  | none => s!"at least {a.least}"
  | some most => if most = a.least then toString a.least else s!"{a.least}-{most}"

end Arity

end LineAssembly
