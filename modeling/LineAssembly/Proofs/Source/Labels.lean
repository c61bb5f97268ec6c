import LineAssembly.Proofs.Listing.RoundTrip
import LineAssembly.Proofs.Source.Lines
import Mathlib.Algebra.GroupWithZero.Nat

/-! # Where labels are bound

A label is declared by the first word of a line and bound to the number of tokens that come before the
line. Each word of a statement line is worth one token and its end is worth one more, so the index is
known from the words alone. Main statement: the table of a scan holds the declared names, each at its last
declaration, every index begins a statement or is the end, and so every scan can be listed.
-/

set_option autoImplicit false

namespace LineAssembly

open Text

namespace Line

def firstWord (text : List Char) : List Char :=
  (words (content text)).headD []

/-- The first word of a line ends in a colon, and is this name when its colons are taken away. -/
def Declares (text : List Char) (name : String) : Prop :=
  (firstWord text).getLast? = some ':' ∧ (firstWord text).filter (· != ':') = name.toList ∧
    isName name.toList = true

instance (text : List Char) (name : String) : Decidable (Declares text name) :=
  inferInstanceAs (Decidable (_ ∧ _))

/-- The number of tokens that a line must give: none if it is blank or begins with a label, else one for
each of its words and one for its end. -/
def slots (text : List Char) : Nat :=
  if content text = [] ∨ (firstWord text).getLast? = some ':' then 0
  else (words (content text)).length + 1

theorem ofText_eq (text : List Char) :
    ofText text = if content text = [] then .blank
      else if (firstWord text).getLast? = some ':' then
        .label (String.ofList ((firstWord text).filter (· != ':'))) (!(words (content text)).tail.isEmpty)
      else .statement (String.ofList (withoutBlanks (firstWord text)))
        ((words (content text)).tail.map Argument.ofWord) := by
  rw [ofText, firstWord]
  cases hwords : words (content text) with
  | nil => exact absurd hwords (splitAt_ne_nil ' ' _)
  | cons first rest => simp [ofWords]

theorem firstWord_of_content {text : List Char} (h : content text = []) : firstWord text = [] := by
  rw [firstWord, h]
  rfl

theorem length_tokens_ofText (text : List Char) : (ofText text).tokens.length = slots text := by
  rw [ofText_eq, slots]
  by_cases hempty : content text = []
  · simp [hempty, tokens]
  · by_cases hcolon : (firstWord text).getLast? = some ':'
    · simp [hempty, hcolon, tokens]
    · have hpos : 0 < (words (content text)).length :=
        List.length_pos_iff.mpr (splitAt_ne_nil ' ' _)
      simp [hempty, hcolon, tokens]
      omega

theorem Declares.tokens_ofText {text : List Char} {name : String} (h : Declares text name) :
    (ofText text).tokens = [] := by
  rw [← List.length_eq_zero_iff, length_tokens_ofText, slots, if_pos (.inr h.1)]

theorem length_flatMap_tokens (ls : List (List Char)) :
    (ls.flatMap fun text => (ofText text).tokens).length = (ls.map slots).sum := by
  rw [List.length_flatMap]
  exact congrArg (fun f => (ls.map f).sum) (funext length_tokens_ofText)

end Line

namespace Reading

open Line (Declares slots)

variable {known : String → Bool} {line index : Nat}

theorem bindings_ofLabel (name : String) (shared : Bool) :
    (ofLabel line index name shared).bindings =
      if isName name.toList = true then [(name, index)] else [] := by
  rw [ofLabel]
  by_cases hempty : name = ""
  · have hunnamed : isName "".toList = false := by decide
    rw [hempty, hunnamed]
    rfl
  · by_cases hname : isName name.toList = true <;> simp [hempty, hname]

theorem get?_bindings_ofText (text : List Char) (name : String) (i : Nat) :
    Table.get? (ofLine known line index (Line.ofText text)).bindings.reverse name = some i ↔
      Declares text name ∧ i = index := by
  rw [Line.ofText_eq, Declares]
  by_cases hempty : Line.content text = []
  · simp [hempty, Line.firstWord_of_content hempty, ofLine, Table.get?]
  · by_cases hcolon : (Line.firstWord text).getLast? = some ':'
    · rw [if_neg hempty, if_pos hcolon, ofLine, bindings_ofLabel, String.toList_ofList,
        and_iff_right hcolon]
      by_cases hname : isName ((Line.firstWord text).filter (· != ':')) = true
      · rw [if_pos hname, List.reverse_singleton, Table.get?, Table.get?]
        constructor
        · intro h
          split_ifs at h with hkey
          cases h
          rw [← hkey, String.toList_ofList]
          exact ⟨⟨rfl, hname⟩, rfl⟩
        · rintro ⟨⟨hkey, -⟩, rfl⟩
          rw [hkey, String.ofList_toList, if_pos rfl]
      · rw [if_neg hname]
        constructor
        · intro h
          cases h
        · rintro ⟨⟨hkey, hname'⟩, -⟩
          exact absurd (hkey ▸ hname') hname
    · rw [if_neg hempty, if_neg hcolon, ofLine, andThen_of_none rfl, bindings_ofArguments]
      constructor
      · intro h
        cases h
      · rintro ⟨⟨hcolon', -⟩, -⟩
        exact absurd hcolon' hcolon

theorem bindings_ofLines_cons {text : List Char} {rest : List (List Char)}
    (h : (ofLines known line index (text :: rest)).fault? = none) (name : String) :
    Table.get? (ofLines known line index (text :: rest)).bindings.reverse name =
      (Table.get? (ofLines known (line + 1) (index + slots text) rest).bindings.reverse name).or
        (Table.get? (ofLine known line index (Line.ofText text)).bindings.reverse name) := by
  obtain ⟨hfirst, -⟩ := fault?_andThen h
  rw [ofLines, andThen_of_none hfirst]
  simp only [tokens_ofLine hfirst, Line.length_tokens_ofText, List.reverse_append, Table.get?_append]

theorem fault?_ofLines_cons {text : List Char} {rest : List (List Char)}
    (h : (ofLines known line index (text :: rest)).fault? = none) :
    (ofLines known (line + 1) (index + slots text) rest).fault? = none := by
  obtain ⟨hfirst, hrest⟩ := fault?_andThen h
  rwa [tokens_ofLine hfirst, Line.length_tokens_ofText] at hrest

theorem isSome_get?_bindings {ls : List (List Char)}
    (h : (ofLines known line index ls).fault? = none) (name : String) :
    (Table.get? (ofLines known line index ls).bindings.reverse name).isSome = true ↔
      ∃ text ∈ ls, Declares text name := by
  induction ls generalizing line index with
  | nil => simp [ofLines, Table.get?]
  | cons text rest ih =>
    have hfirst : (Table.get? (ofLine known line index (Line.ofText text)).bindings.reverse
        name).isSome = true ↔ Declares text name := by
      simp [Option.isSome_iff_exists, get?_bindings_ofText]
    rw [bindings_ofLines_cons h, Option.isSome_or, Bool.or_eq_true, ih (fault?_ofLines_cons h), hfirst]
    simp [or_comm]

/-- Of several declarations of a name the last one counts. -/
theorem get?_bindings_ofLines {ls : List (List Char)}
    (h : (ofLines known line index ls).fault? = none) (name : String) (i : Nat) :
    Table.get? (ofLines known line index ls).bindings.reverse name = some i ↔
      ∃ before text after, ls = before ++ text :: after ∧ Declares text name ∧
        (∀ later ∈ after, ¬ Declares later name) ∧ i = index + (before.map slots).sum := by
  induction ls generalizing line index with
  | nil => simp [ofLines, Table.get?]
  | cons text rest ih =>
    have hrest := fault?_ofLines_cons h
    have hnone : Table.get? (ofLines known (line + 1) (index + slots text) rest).bindings.reverse
        name = none ↔ ∀ later ∈ rest, ¬ Declares later name := by
      rw [← Option.not_isSome_iff_eq_none, isSome_get?_bindings hrest]
      simp
    rw [bindings_ofLines_cons h, Option.or_eq_some_iff, ih hrest, hnone, get?_bindings_ofText]
    constructor
    · rintro (⟨before, other, after, rfl, hother, hlater, rfl⟩ | ⟨hlater, htext, rfl⟩)
      · refine ⟨text :: before, other, after, rfl, hother, hlater, ?_⟩
        simp [Nat.add_assoc]
      · exact ⟨[], text, rest, rfl, htext, hlater, rfl⟩
    · rintro ⟨before, other, after, hsplit, hother, hlater, rfl⟩
      rcases List.cons_eq_append_iff.mp hsplit with ⟨rfl, hcons⟩ | ⟨before', rfl, hrest'⟩
      · cases hcons
        exact .inr ⟨hlater, hother, rfl⟩
      · refine .inl ⟨before', other, after, hrest', hother, hlater, ?_⟩
        simp [Nat.add_assoc]

end Reading

namespace Machine

open Line (Declares slots)

variable {m : Machine} {source : String} {ts : List Token}

theorem get?_labels_scan (m : Machine) (source : String) (name : String) :
    (m.scan source).1.labels.get? name =
      Table.get? (Reading.ofSource m.instructions.has source).bindings.reverse name := by
  rw [labels_scan, Table.get?_putAll]
  exact Option.or_none

/-- What stands before and behind the index of a label. -/
theorem boundary_of_declares (h : (m.scan source).2 = .ok ts) {before after : List (List Char)}
    {text : List Char} {name : String} (hlines : Text.lines source.toList = before ++ text :: after)
    (hdeclares : Declares text name) :
    (before.map slots).sum ≤ ts.length ∧
      ((before.map slots).sum = ts.length ∨
        ∃ mnemonic, ts[(before.map slots).sum]? = some (.instruction mnemonic)) ∧
      ((before.map slots).sum = 0 ∨ ts[(before.map slots).sum - 1]? = some .statementEnd) := by
  have hts := tokens_scan h
  rw [hlines, List.flatMap_append, List.flatMap_cons, hdeclares.tokens_ofText, List.nil_append] at hts
  rw [hts, ← Line.length_flatMap_tokens]
  refine ⟨by simp, ?_, ?_⟩
  · rw [List.getElem?_append_right (Nat.le_refl _), Nat.sub_self, ← List.head?_eq_getElem?]
    cases hhead : (after.flatMap fun text => (Line.ofText text).tokens).head? with
    | none => exact .inl (by simp [List.head?_eq_none_iff.mp hhead])
    | some t =>
      obtain ⟨mnemonic, rfl⟩ := Line.head?_flatMap after hhead
      exact .inr ⟨mnemonic, rfl⟩
  · rcases Nat.eq_zero_or_pos (before.flatMap fun text => (Line.ofText text).tokens).length with
      hzero | hpos
    · exact .inl hzero
    · right
      rw [List.getElem?_append_left (by omega), ← List.getLast?_eq_getElem?]
      cases hlast : (before.flatMap fun text => (Line.ofText text).tokens).getLast? with
      | none => simp [List.getLast?_eq_none_iff.mp hlast] at hpos
      | some t => rw [Line.getLast?_flatMap before hlast]

/-- A scan that returns has bound the declared names and no others, each to the tokens before its last
declaration, and its result can always be listed. -/
theorem labels_scan_iff (h : (m.scan source).2 = .ok ts) :
    (∀ name, (m.scan source).1.labels.has name = true ↔
      ∃ text ∈ Text.lines source.toList, Declares text name) ∧
    (∀ name index, (m.scan source).1.labels.get? name = some index ↔
      ∃ before text after, Text.lines source.toList = before ++ text :: after ∧
        Declares text name ∧ (∀ later ∈ after, ¬ Declares later name) ∧
          index = (before.map slots).sum) ∧
    (∀ name index, (m.scan source).1.labels.get? name = some index →
      index ≤ ts.length ∧
      (index = ts.length ∨ ∃ mnemonic, ts[index]? = some (.instruction mnemonic)) ∧
      (index = 0 ∨ ts[index - 1]? = some .statementEnd)) ∧
    ∃ written, Listing.text ts (Listing.ofTable (m.scan source).1.labels) = .ok written := by
  obtain ⟨hfault, -⟩ := scan_eq_ok_iff.mp h
  have hlast : ∀ name index, (m.scan source).1.labels.get? name = some index ↔
      ∃ before text after, Text.lines source.toList = before ++ text :: after ∧
        Declares text name ∧ (∀ later ∈ after, ¬ Declares later name) ∧
          index = (before.map slots).sum := by
    intro name index
    rw [get?_labels_scan, Reading.ofSource, Reading.get?_bindings_ofLines hfault]
    simp only [Nat.zero_add]
  refine ⟨fun name => ?_, hlast, fun name index hindex => ?_, ?_⟩
  · rw [Table.has, get?_labels_scan]
    exact Reading.isSome_get?_bindings hfault name
  · obtain ⟨before, text, after, hlines, hdeclares, -, rfl⟩ := (hlast name index).mp hindex
    exact boundary_of_declares h hlines hdeclares
  · have hclear := Listing.clear_of_atBoundary fun b hb => ((scan_spec h).2.2 b hb).2
    exact ⟨_, (Listing.text_eq_ok_iff _ _ _).mpr ⟨hclear, rfl⟩⟩

def redeclared : String :=
  "L: NOP\nADD [a]  ? 2147483648\n L:;; again\n\tPRINT L"

/-- The statement in between has five words, one of them empty, one malformed and one out of range. -/
theorem labels_scan_iff_redeclared :
    (({} : Machine).scan redeclared).2 = .ok [.instruction "ADD", .register "a", .statementEnd,
      .statementEnd, .statementEnd, .statementEnd, .instruction "PRINT", .value (.label "L"),
      .statementEnd] ∧
    (({} : Machine).scan redeclared).1.labels.get? "L" = some 6 ∧
    ∃ written, Listing.text [.instruction "ADD", .register "a", .statementEnd, .statementEnd,
      .statementEnd, .statementEnd, .instruction "PRINT", .value (.label "L"), .statementEnd]
        (Listing.ofTable (({} : Machine).scan redeclared).1.labels) = .ok written := by
  have hscan : (({} : Machine).scan redeclared).2 = .ok [.instruction "ADD", .register "a",
      .statementEnd, .statementEnd, .statementEnd, .statementEnd, .instruction "PRINT",
      .value (.label "L"), .statementEnd] := by
    decide +kernel
  obtain ⟨-, hlast, -, hlisting⟩ := labels_scan_iff hscan
  refine ⟨hscan, (hlast "L" 6).mpr ?_, hlisting⟩
  refine ⟨["L: NOP".toList, "ADD [a]  ? 2147483648".toList], " L:;; again".toList,
    ["\tPRINT L".toList], ?_⟩
  decide +kernel

end Machine

end LineAssembly
