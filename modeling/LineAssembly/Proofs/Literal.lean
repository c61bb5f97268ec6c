import LineAssembly.Proofs.Source.Messages
import Mathlib.Data.List.Forall2
import Mathlib.Data.Nat.Digits.Defs

/-! # Integer literals in any script

A digit stands a few places after the zero of its script, and a word of digits, of one script or of
several, spells the digits of a number in base ten. Main statement: a literal is the number that its word
spells, if the signed 32-bit range holds it. Neither the scripts nor zeros in front make a difference, and
the text of a literal is read as the same literal.
-/

set_option autoImplicit false

namespace LineAssembly

namespace Text

/-- The digit `d` of some script, which has its ten digits in a row. -/
def StandsFor (c : Char) (d : Nat) : Prop :=
  d < 10 ∧ ∃ nought ∈ zeros, c.toNat = nought + d

instance (c : Char) (d : Nat) : Decidable (StandsFor c d) :=
  inferInstanceAs (Decidable (_ ∧ _))

theorem zeros_apart : zeros.Pairwise fun nought next => nought + 10 ≤ next := by
  decide

/-- The search may end at the first block that starts beyond the code point, since no two blocks
overlap. -/
theorem digitIn?_eq_some_iff {n d : Nat} {table : List Nat}
    (h : table.Pairwise fun nought next => nought + 10 ≤ next) :
    digitIn? n table = some d ↔ d < 10 ∧ ∃ nought ∈ table, n = nought + d := by
  induction table with
  | nil => simp [digitIn?]
  | cons first rest ih =>
    obtain ⟨hapart, hrest⟩ := List.pairwise_cons.mp h
    rw [digitIn?]
    split_ifs with hbefore hinside
    -- A code point before this block is before the later ones too.
    · constructor
      · intro hnone
        cases hnone
      · rintro ⟨hd, nought, hmem, rfl⟩
        rcases List.mem_cons.mp hmem with rfl | hmem
        · omega
        · have hnext := hapart nought hmem
          omega
    · constructor
      · intro hsome
        cases hsome
        exact ⟨by omega, first, List.mem_cons_self, by omega⟩
      · rintro ⟨hd, nought, hmem, rfl⟩
        rcases List.mem_cons.mp hmem with rfl | hmem
        · rw [Nat.add_sub_cancel_left]
        · have hnext := hapart nought hmem
          omega
    · rw [ih hrest]
      constructor
      · rintro ⟨hd, nought, hmem, rfl⟩
        exact ⟨hd, nought, List.mem_cons_of_mem _ hmem, rfl⟩
      · rintro ⟨hd, nought, hmem, rfl⟩
        rcases List.mem_cons.mp hmem with rfl | hmem
        · omega
        · exact ⟨hd, nought, hmem, rfl⟩

theorem digitValue?_eq_some_iff {c : Char} {d : Nat} : digitValue? c = some d ↔ StandsFor c d :=
  digitIn?_eq_some_iff zeros_apart

end Text

open Text

namespace Numeral

/-- The digits that a word has, one for each of its characters. -/
def Spells (word : List Char) (digits : List Nat) : Prop :=
  List.Forall₂ StandsFor word digits

/-- The number with the given digits in base ten, those of the higher places first. -/
def inBaseTen (digits : List Nat) : Nat :=
  Nat.ofDigits 10 digits.reverse

variable {word leading : List Char} {digits : List Nat}

theorem spells_iff : Spells word digits ↔ word.map digitValue? = digits.map some := by
  rw [Spells, ← List.forall₂_eq_eq_eq, List.forall₂_map_left_iff, List.forall₂_map_right_iff]
  simp only [digitValue?_eq_some_iff]

/-- A word of digits spells one list of digits and no other. -/
theorem exists_spells_iff (h : ∀ c ∈ word, isDigit c = true) :
    ∃ digits, ∀ others, Spells word others ↔ others = digits := by
  have hvalues : word.map digitValue? = (word.map fun c => (digitValue? c).getD 0).map some := by
    rw [List.map_map]
    apply List.map_congr_left
    intro c hc
    obtain ⟨d, hd⟩ := Option.isSome_iff_exists.mp (h c hc)
    simp [hd]
  refine ⟨word.map fun c => (digitValue? c).getD 0, fun others => ?_⟩
  rw [spells_iff, hvalues, (List.map_injective_iff.mpr (Option.some_injective Nat)).eq_iff, eq_comm]

theorem Spells.isDigit (h : Spells word digits) : ∀ c ∈ word, isDigit c = true := by
  intro c hc
  have hmem : digitValue? c ∈ digits.map some := by
    rw [← spells_iff.mp h]
    exact List.mem_map_of_mem hc
  obtain ⟨d, -, hd⟩ := List.mem_map.mp hmem
  rw [Text.isDigit, ← hd]
  rfl

theorem Spells.foldl_eq (h : Spells word digits) (n : Nat) :
    word.foldl (fun n c => 10 * n + (digitValue? c).getD 0) n =
      digits.foldl (fun n d => d + 10 * n) n := by
  induction h generalizing n with
  | nil => rfl
  | cons hfirst _ ih =>
    rw [List.foldl_cons, List.foldl_cons, digitValue?_eq_some_iff.mpr hfirst, Option.getD_some,
      Nat.add_comm]
    exact ih _

/-- Each digit read multiplies what came before it by ten, so a digit counts by its place from the end. -/
theorem Spells.positional_eq (h : Spells word digits) : positional word = inBaseTen digits := by
  rw [positional, h.foldl_eq, inBaseTen, Nat.ofDigits_eq_foldr, List.foldr_reverse]
  rfl

theorem spells_leading (h : ∀ c ∈ leading, StandsFor c 0) :
    Spells leading (List.replicate leading.length 0) := by
  induction leading with
  | nil => exact .nil
  | cons c rest ih =>
    exact .cons (h c List.mem_cons_self) (ih fun d hd => h d (List.mem_cons_of_mem c hd))

theorem inBaseTen_leading (count : Nat) (digits : List Nat) :
    inBaseTen (List.replicate count 0 ++ digits) = inBaseTen digits := by
  rw [inBaseTen, List.reverse_append, List.reverse_replicate, Nat.ofDigits_append_replicate_zero]
  rfl

end Numeral

namespace Literal

open Argument (IsDigits)
open Numeral (Spells inBaseTen)

variable {word leading other : List Char} {digits : List Nat} {n : Int32}

theorem parse_of_spells (hne : word ≠ []) (h : Spells word digits)
    (hlength : word.length ≤ Numeral.digitLimit) :
    parse word = if Value.greatestInt < inBaseTen digits then .ok none
      else .ok (some (Int32.ofInt (inBaseTen digits))) := by
  rw [parse_of_digits hne h.isDigit, if_neg (by omega), h.positional_eq]

theorem parse_respelled (hne : word ≠ []) (hword : Spells word digits)
    (hlength : word.length ≤ Numeral.digitLimit) (hleading : ∀ c ∈ leading, StandsFor c 0)
    (hother : Spells other digits) (hlonger : (leading ++ other).length ≤ Numeral.digitLimit) :
    parse (leading ++ other) = parse word := by
  have hne' : leading ++ other ≠ [] := by
    intro hnil
    rw [(List.append_eq_nil_iff.mp hnil).2] at hother
    cases hother
    cases hword
    exact hne rfl
  have hspells : Spells (leading ++ other) (List.replicate leading.length 0 ++ digits) :=
    List.rel_append (Numeral.spells_leading hleading) hother
  rw [parse_of_spells hne' hspells hlonger, parse_of_spells hne hword hlength,
    Numeral.inBaseTen_leading]

theorem ofWord_of_parse (hdigits : IsDigits word) (h : parse word = .ok (some n)) :
    Argument.ofWord word = .literal n := by
  have hblanks : withoutBlanks word = word :=
    withoutBlanks_eq_self fun c hc => isBlank_of_isDigit (hdigits.2 c hc)
  have hempty : ¬ word.isEmpty = true := by simpa using hdigits.1
  have hall : word.all isDigit = true := by simpa using hdigits.2
  rw [Argument.ofWord, hblanks, Argument.ofCompact, if_neg hempty, if_pos hall, Argument.ofDigits, h]

theorem nonneg_of_parse (hdigits : IsDigits word) (h : parse word = .ok (some n)) : 0 ≤ n.toInt :=
  Argument.nonneg_of_ofDigits hdigits.1 hdigits.2 (by rw [Argument.ofDigits, h])

theorem isDigits_text (h : 0 ≤ n.toInt) : IsDigits (Value.int n).text.toList := by
  rw [Listing.toList_text_int h]
  exact ⟨Nat.toDigits_ne_nil, fun c hc => isDigit_of_mem_toDigits hc⟩

theorem parse_text (h : 0 ≤ n.toInt) : parse (Value.int n).text.toList = .ok (some n) := by
  rw [Listing.toList_text_int h, parse_toDigits h]

/-- A word of digits that is not too long is read as the number that it spells, or as none when the number
is above the signed 32-bit range. Any word with the same digits in other scripts, and with zeros of any
scripts in front, is read alike. The text of what is read is a word of digits, and as an argument it gives
the same token as the word. -/
theorem parse_positional (hdigits : IsDigits word) (hlength : word.length ≤ Numeral.digitLimit) :
    ∃ digits, (∀ others, Spells word others ↔ others = digits) ∧
      (inBaseTen digits ≤ Value.greatestInt →
        ∃ n : Int32, n.toInt = inBaseTen digits ∧ parse word = .ok (some n)) ∧
      (Value.greatestInt < inBaseTen digits → parse word = .ok none) ∧
      (∀ leading other, (∀ c ∈ leading, StandsFor c 0) → Spells other digits →
        (leading ++ other).length ≤ Numeral.digitLimit → parse (leading ++ other) = parse word) ∧
      ∀ n, parse word = .ok (some n) →
        IsDigits (Value.int n).text.toList ∧ ∀ line,
          Reading.ofArgument line (Argument.ofWord (Value.int n).text.toList) =
            { tokens := [.value (.int n)] } ∧
          Reading.ofArgument line (Argument.ofWord word) = { tokens := [.value (.int n)] } := by
  obtain ⟨digits, hunique⟩ := Numeral.exists_spells_iff hdigits.2
  have hspells : Spells word digits := (hunique digits).mpr rfl
  have hparse := parse_of_spells hdigits.1 hspells hlength
  refine ⟨digits, hunique, ?_, ?_, ?_, ?_⟩
  · intro hfits
    refine ⟨Int32.ofInt (inBaseTen digits), ?_, ?_⟩
    · exact Value.toInt_ofInt ⟨by rw [Value.leastInt]; omega, hfits⟩
    · rw [hparse, if_neg (by omega)]
  · intro hgreat
    rw [hparse, if_pos hgreat]
  · intro leading other hleading hother hlonger
    exact parse_respelled hdigits.1 hspells hlength hleading hother hlonger
  · intro n hn
    have hnonneg : 0 ≤ n.toInt := nonneg_of_parse hdigits hn
    have htext : IsDigits (Value.int n).text.toList := isDigits_text hnonneg
    refine ⟨htext, fun line => ⟨?_, ?_⟩⟩
    · rw [ofWord_of_parse htext (parse_text hnonneg)]
      rfl
    · rw [ofWord_of_parse hdigits hn]
      rfl

/-- The greatest literal, its digits of four scripts, with a zero in front. -/
def greatestMixed : List Char :=
  ['०', '٢', '1', '４', '7', '४', '8', '٣', '6', '4', '7']

theorem parse_positional_mixed :
    IsDigits greatestMixed ∧ greatestMixed.length ≤ Numeral.digitLimit ∧
    parse greatestMixed = .ok (some 2147483647) ∧
    parse ('٠' :: '０' :: "02147483647".toList) = .ok (some 2147483647) ∧
    Reading.ofArgument 1 (Argument.ofWord "2147483647".toList) =
      { tokens := [.value (.int 2147483647)] } := by
  have hdigits : IsDigits greatestMixed := by decide
  have hlength : greatestMixed.length ≤ Numeral.digitLimit := by decide
  obtain ⟨digits, hunique, hfits, -, hrespelled, htext⟩ := parse_positional hdigits hlength
  obtain rfl : [0, 2, 1, 4, 7, 4, 8, 3, 6, 4, 7] = digits :=
    (hunique _).mp (Numeral.spells_iff.mpr (by decide))
  obtain ⟨n, hn, hparse⟩ := hfits (by decide)
  obtain rfl : n = 2147483647 := Int32.toInt_inj.mp hn
  have hleading : ∀ c ∈ ['٠', '０'], StandsFor c 0 := by
    intro c hc
    rcases List.mem_pair.mp hc with rfl | rfl <;> decide
  have hlatin : Spells "02147483647".toList [0, 2, 1, 4, 7, 4, 8, 3, 6, 4, 7] :=
    Numeral.spells_iff.mpr (by decide)
  refine ⟨hdigits, hlength, hparse, ?_, ((htext _ hparse).2 1).1⟩
  rw [← hparse]
  exact hrespelled ['٠', '０'] "02147483647".toList hleading hlatin (by decide)

-- One more than the greatest literal.
example : parse ['०', '٢', '1', '４', '7', '४', '8', '٣', '6', '4', '८'] = .ok none := by decide

end Literal

end LineAssembly
