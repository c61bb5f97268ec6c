import LineAssembly.Datum

/-! # Integer literals of a source -/

set_option autoImplicit false

namespace LineAssembly.Literal

/-- Why a word gives no literal: it is no numeral, or it is below the signed 32-bit range. -/
inductive Fault where
  | numeral (fault : Numeral.Fault)
  | refused (refusal : Datum.Refusal)
deriving DecidableEq, Repr

/-- The integer that a word denotes, or nothing when it is above the signed 32-bit range. -/
def parse (word : List Char) : Except Fault (Option Int32) :=
  match Numeral.read word with
  | .error fault => .error (.numeral fault)
  | .ok n =>
    if Value.greatestInt < n then .ok none
    else if n < Value.leastInt then .error (.refused ⟨["value"], .tooSmall⟩)
    else .ok (some (Int32.ofInt n))

end LineAssembly.Literal
