import LineAssembly.Text.Alphanumeric
import LineAssembly.Text.Blank
import LineAssembly.Text.Digit

/-! # How the character classes lie to one another

No blank is alphanumeric or a digit, and the ten digits of the Latin script are digits with their usual
values.
-/

set_option autoImplicit false

namespace LineAssembly.Text

theorem blankRanges_disjoint : ∀ range ∈ blankRanges,
    ∀ n ∈ List.range' range.1 (range.2 + 1 - range.1),
      alphanumericRanges.has n = false ∧ digitIn? n zeros = none := by
  decide +kernel

theorem disjoint_of_isBlank {c : Char} (h : isBlank c = true) :
    isAlphanumeric c = false ∧ digitValue? c = none := by
  obtain ⟨range, hrange, hlow, hhigh⟩ := Ranges.exists_of_has h
  apply blankRanges_disjoint range hrange
  rw [List.mem_range'_1]
  omega

theorem isBlank_of_isAlphanumeric {c : Char} (h : isAlphanumeric c = true) : isBlank c = false := by
  rw [Bool.eq_false_iff]
  intro hblank
  rw [(disjoint_of_isBlank hblank).1] at h
  cases h

theorem isBlank_of_isDigit {c : Char} (h : isDigit c = true) : isBlank c = false := by
  rw [Bool.eq_false_iff]
  intro hblank
  rw [isDigit, (disjoint_of_isBlank hblank).2] at h
  cases h

theorem isName_iff {word : List Char} :
    isName word = true ↔ word ≠ [] ∧ ∀ c ∈ word, isAlphanumeric c = true := by
  simp [isName]

theorem not_mem_of_forall {p : Char → Bool} {word : List Char} {c : Char}
    (h : ∀ d ∈ word, p d = true) (hc : p c = false) : c ∉ word := by
  intro hmem
  rw [h c hmem] at hc
  cases hc

theorem digitValue?_latin {c : Char} (h : c.isDigit = true) :
    digitValue? c = some (c.toNat - '0'.toNat) := by
  obtain ⟨hlow, hhigh⟩ := Char.isDigit_iff_toNat.mp h
  change 48 ≤ c.toNat at hlow
  change c.toNat ≤ 57 at hhigh
  rw [digitValue?, zeros, digitIn?, if_neg (by omega), if_pos (by omega)]
  rfl

theorem isDigit_latin {c : Char} (h : c.isDigit = true) : isDigit c = true := by
  rw [isDigit, digitValue?_latin h]
  rfl

theorem isAlphanumeric_latin {c : Char} (h : c.isDigit = true) : isAlphanumeric c = true := by
  obtain ⟨hlow, hhigh⟩ := Char.isDigit_iff_toNat.mp h
  change 48 ≤ c.toNat at hlow
  change c.toNat ≤ 57 at hhigh
  rw [isAlphanumeric, alphanumericRanges, Ranges.has, if_neg (by omega), if_pos hhigh]

end LineAssembly.Text
