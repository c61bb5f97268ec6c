import LineAssembly.Literal
import LineAssembly.Proofs.Text.Classes
import Mathlib.Algebra.Group.Nat.Defs
import Mathlib.Data.List.Basic
import Mathlib.Data.List.TakeDrop
import Mathlib.Data.List.TakeWhile

/-! # Words of digits as numerals

A word of digits is read as its positional value, unless it has too many of them. The decimal text of a
number is read as that number. Every integer of the signed 32-bit range can be written.
-/

set_option autoImplicit false

namespace LineAssembly

open Text

namespace Numeral

theorem splitSign_of_digits {word : List Char} (h : ∀ c ∈ word, isDigit c = true) :
    splitSign word = (false, word) := by
  cases word with
  | nil => rfl
  | cons c rest =>
    have hc : isDigit c = true := h c List.mem_cons_self
    rw [splitSign.eq_def]
    split
    · rename_i heq
      obtain ⟨rfl, -⟩ := List.cons.inj heq
      exact absurd hc (by decide)
    · rename_i heq
      obtain ⟨rfl, -⟩ := List.cons.inj heq
      exact absurd hc (by decide)
    · rfl

theorem grouped_of_not_mem {run : List Char} (hne : run ≠ []) (h : '_' ∉ run) :
    grouped run = true := by
  fun_induction grouped run with
  | case1 => exact absurd rfl hne
  | case2 c =>
    have hc : c ≠ '_' := fun he => h (by simp [he])
    simp [hc]
  | case3 c d rest ih =>
    have hc : c ≠ '_' := fun he => h (by simp [he])
    have hrest : grouped (d :: rest) = true :=
      ih (by simp) (fun hm => h (List.mem_cons_of_mem _ hm))
    simp [hc, hrest]

theorem isDigitRun_of_digits {word : List Char} (hne : word ≠ [])
    (h : ∀ c ∈ word, isDigit c = true) : isDigitRun word = true := by
  have hmem : '_' ∉ word := not_mem_of_forall h (by decide)
  have hhead : word.head? ≠ some '_' := fun he => hmem (List.mem_of_mem_head? he)
  rw [isDigitRun, grouped_of_not_mem hne hmem]
  simp [hhead]

/-- A word of digits is refused only for its length. -/
theorem read_of_digits {word : List Char} (hne : word ≠ []) (h : ∀ c ∈ word, isDigit c = true) :
    read word =
      if digitLimit < word.length then .error (.tooManyDigits word.length)
      else .ok (positional word : Int) := by
  have hspace : word.dropWhile isSpace = word := by
    cases word with
    | nil => rfl
    | cons c rest =>
      have hc : isBlank c = false := isBlank_of_isDigit (h c List.mem_cons_self)
      exact List.dropWhile_cons_of_neg (by simp [isSpace, hc])
  have hspan : word.span (fun c => isDigit c || c == '_') = (word, []) := by
    rw [List.span_eq_takeWhile_dropWhile, List.takeWhile_eq_self_iff.mpr, List.dropWhile_eq_nil_iff.mpr]
    all_goals exact fun c hc => by simp [h c hc]
  have hfilter : word.filter isDigit = word := List.filter_eq_self.mpr h
  rw [read, hspace, splitSign_of_digits h]
  simp only [hspan, hfilter, isDigitRun_of_digits hne h]
  rfl

theorem positional_toDigits (n : Nat) : positional (Nat.toDigits 10 n) = n := by
  have hstep : positional (Nat.toDigits 10 n) = Nat.ofDigitChars 10 (Nat.toDigits 10 n) 0 := by
    rw [positional, Nat.ofDigitChars_eq_foldl]
    apply List.foldl_ext
    intro m c hc
    have hdigit : c.isDigit = true := Nat.isDigit_of_mem_toDigits (by decide) (by decide) hc
    rw [digitValue?_latin hdigit]
    rfl
  rw [hstep, Nat.ofDigitChars_ten_toDigits]

theorem isWritable_iff {n : Int} : IsWritable n ↔ n.natAbs < 10 ^ digitLimit :=
  Nat.length_toDigits_le_iff (by decide) (by decide)

/-- The least integer with too many digits to be written. -/
def leastUnwritable : Nat := 10 ^ digitLimit

theorem not_isWritable_leastUnwritable : ¬ IsWritable leastUnwritable := by
  rw [isWritable_iff, Int.natAbs_natCast]
  exact Nat.lt_irrefl _

theorem isWritable_of_inRange {n : Int} (h : Value.leastInt ≤ n ∧ n ≤ Value.greatestInt) :
    IsWritable n := by
  obtain ⟨hleast, hgreatest⟩ := h
  rw [Value.leastInt] at hleast
  rw [Value.greatestInt] at hgreatest
  have hlength : (Nat.toDigits 10 n.natAbs).length ≤ 10 := by
    rw [Nat.length_toDigits_le_iff (by decide) (by decide)]
    omega
  exact hlength.trans (by decide)

end Numeral

theorem isDigit_of_mem_toDigits {n : Nat} {c : Char} (h : c ∈ Nat.toDigits 10 n) :
    isDigit c = true :=
  isDigit_latin (Nat.isDigit_of_mem_toDigits (by decide) (by decide) h)

/-- A word of digits is a literal unless it has too many of them or its value is too great. -/
theorem Literal.parse_of_digits {word : List Char} (hne : word ≠ [])
    (h : ∀ c ∈ word, isDigit c = true) :
    Literal.parse word =
      if Numeral.digitLimit < word.length then
        .error (.numeral (.tooManyDigits word.length))
      else if Value.greatestInt < Numeral.positional word then .ok none
      else .ok (some (Int32.ofInt (Numeral.positional word))) := by
  have hleast : ¬ (Numeral.positional word : Int) < Value.leastInt := by
    rw [Value.leastInt]
    omega
  rw [Literal.parse, Numeral.read_of_digits hne h]
  by_cases hlimit : Numeral.digitLimit < word.length <;> simp [hlimit, hleast]

theorem Literal.parse_toDigits {n : Int32} (h : 0 ≤ n.toInt) :
    Literal.parse (Nat.toDigits 10 n.toInt.toNat) = .ok (some n) := by
  have hgreatest : n.toInt < 2 ^ 31 := Int32.toInt_lt n
  have hlength : (Nat.toDigits 10 n.toInt.toNat).length ≤ 10 := by
    rw [Nat.length_toDigits_le_iff (by decide) (by decide)]
    omega
  have hgreatest' : ¬ Value.greatestInt < n.toInt := by
    rw [Value.greatestInt]
    omega
  rw [Literal.parse_of_digits Nat.toDigits_ne_nil (fun c hc => isDigit_of_mem_toDigits hc),
    Numeral.positional_toDigits, Int.toNat_of_nonneg h, if_neg (by rw [Numeral.digitLimit]; omega),
    if_neg hgreatest', Int32.ofInt_toInt]

end LineAssembly
