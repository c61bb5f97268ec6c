import LineAssembly.Proofs.Listing.Rows
import Mathlib.Data.Nat.Find

/-! # Where a listing places its labels

The lines of a listing can be told index by index: a mnemonic stands for the line of its statement, a token
outside any statement for a comment, and the labels of an index stand before the line of that index. What
has an index outside the stream comes last. Main statement: every label is written exactly once, or the
listing is refused for the first index at which a label points inside a statement.
-/

set_option autoImplicit false

namespace LineAssembly

def Token.isOperand : Token → Bool
  | .value _ | .register _ => true
  | .instruction _ | .statementEnd => false

namespace Listing

variable {ts : List Token} {labels : Labels} {i : Nat}

/-! ## Inside a statement -/

/-- A mnemonic comes before the index, and no end of a statement between the two. -/
def Inside (ts : List Token) (index : Nat) : Prop :=
  ∃ j name, j < index ∧ ts[j]? = some (.instruction name) ∧
    ∀ k, j < k → k < index → ts[k]? ≠ some .statementEnd

theorem inside_succ_iff :
    Inside ts (i + 1) ↔
      (∃ name, ts[i]? = some (.instruction name)) ∨ Inside ts i ∧ ts[i]? ≠ some .statementEnd := by
  constructor
  · rintro ⟨j, name, hj, hname, hbetween⟩
    rcases Nat.lt_succ_iff_lt_or_eq.mp hj with hlt | rfl
    · exact .inr ⟨⟨j, name, hlt, hname, fun k hjk hki => hbetween k hjk (by omega)⟩,
        hbetween i hlt (by omega)⟩
    · exact .inl ⟨name, hname⟩
  · rintro (⟨name, hname⟩ | ⟨⟨j, name, hj, hname, hbetween⟩, hlast⟩)
    · exact ⟨i, name, by omega, hname, fun k hik hki => by omega⟩
    · refine ⟨j, name, by omega, hname, fun k hjk hki => ?_⟩
      rcases Nat.lt_succ_iff_lt_or_eq.mp hki with hlt | rfl
      · exact hbetween k hjk hlt
      · exact hlast

theorem stillOpen_take_iff : stillOpen false (ts.take i) = true ↔ Inside ts i := by
  induction i with
  | zero =>
    rw [List.take_zero]
    constructor
    · nofun
    · rintro ⟨j, name, hj, -⟩
      omega
  | succ i ih =>
    rw [inside_succ_iff, ← ih]
    cases htoken : ts[i]? with
    | none =>
      rw [List.take_add_one, htoken]
      simp
    | some t =>
      rw [stillOpen_take_succ false htoken]
      cases t <;> simp [stillOpen]

instance (ts : List Token) (index : Nat) : Decidable (Inside ts index) :=
  decidable_of_iff _ stillOpen_take_iff

/-- An index of the stream that a label gives and that is inside a statement. -/
def Misplaced (ts : List Token) (labels : Labels) (index : Nat) : Prop :=
  index < ts.length ∧ Inside ts index ∧ ∃ name, (name, (index : Int)) ∈ labels

theorem labelsAt_ne_nil_iff {index : Int} :
    labelsAt labels index ≠ [] ↔ ∃ name, (name, index) ∈ labels := by
  simp [List.eq_nil_iff_forall_not_mem, mem_labelsAt]

theorem clear_iff : Clear labels 0 false ts ↔ ∀ index, ¬ Misplaced ts labels index := by
  constructor
  · rintro hclear index ⟨hindex, hinside, hlabel⟩
    refine labelsAt_ne_nil_iff.mpr hlabel ?_
    simpa using hclear index hindex (stillOpen_take_iff.mpr hinside)
  · intro hnone index hindex hopen
    by_contra hlabel
    rw [Nat.zero_add] at hlabel
    exact hnone index ⟨hindex, stillOpen_take_iff.mp hopen, labelsAt_ne_nil_iff.mp hlabel⟩

/-! ## The line of an index -/

/-- The operands up to the first token of another kind. -/
def operandTexts (ts : List Token) : List String :=
  (ts.takeWhile Token.isOperand).map operandText

@[simp] theorem operandTexts_cons (t : Token) (ts : List Token) :
    operandTexts (t :: ts) = if t.isOperand then operandText t :: operandTexts ts else [] := by
  cases hoperand : t.isOperand <;> simp [operandTexts, hoperand]

/-- The line of the token at an index, where a statement may be open before the first token. -/
def lineFrom? (isOpen : Bool) (ts : List Token) (index : Nat) : Option String :=
  match ts[index]? with
  | none => none
  | some (.instruction name) => some (statementLine (name :: operandTexts (ts.drop (index + 1))))
  | some t => if stillOpen isOpen (ts.take index) then none else some (Row.stray t).text

/-- A mnemonic has the line of its statement and a token outside any statement has a comment line. The
other tokens are on the line of their mnemonic. -/
def lineAt? (ts : List Token) (index : Nat) : Option String :=
  match ts[index]? with
  | none => none
  | some (.instruction name) => some (statementLine (name :: operandTexts (ts.drop (index + 1))))
  | some t => if Inside ts index then none else some (Row.stray t).text

theorem lineFrom?_false (ts : List Token) (index : Nat) : lineFrom? false ts index = lineAt? ts index := by
  rw [lineFrom?, lineAt?]
  simp only [stillOpen_take_iff]

theorem lineFrom?_cons_succ (isOpen : Bool) (t : Token) (ts : List Token) (index : Nat) :
    lineFrom? isOpen (t :: ts) (index + 1) = lineFrom? (stillOpen isOpen [t]) ts index := by
  rw [lineFrom?, lineFrom?, List.getElem?_cons_succ, List.take_succ_cons, stillOpen_cons,
    List.drop_succ_cons]

def linesFrom (labels : Labels) (index : Nat) (isOpen : Bool) (ts : List Token) : List String :=
  (List.range ts.length).flatMap fun i =>
    labelLines labels ((index + i : Nat) : Int) ++ (lineFrom? isOpen ts i).toList

theorem linesFrom_cons (labels : Labels) (index : Nat) (isOpen : Bool) (t : Token)
    (ts : List Token) :
    linesFrom labels index isOpen (t :: ts) =
      labelLines labels index ++ (lineFrom? isOpen (t :: ts) 0).toList ++
        linesFrom labels (index + 1) (stillOpen isOpen [t]) ts := by
  rw [linesFrom, List.length_cons, List.range_succ_eq_map, List.flatMap_cons, List.flatMap_map]
  refine congrArg _ (List.flatMap_congr fun i _ => ?_)
  rw [Nat.succ_eq_add_one, lineFrom?_cons_succ, Nat.add_right_comm index 1 i, Nat.add_assoc]

/-- An open statement takes the operands that come first, and is written before all that follows. -/
theorem map_text_tokenRows {index : Nat} {current : Option Statement}
    (hclear : Clear labels index current.isSome ts) :
    (tokenRows labels index current ts).map Row.text =
      (current.map fun s => statementLine (statementWords s ++ operandTexts ts)).toList ++
        linesFrom labels index current.isSome ts := by
  induction ts generalizing index current with
  | nil => cases current <;> simp [tokenRows, linesFrom, operandTexts, Row.text]
  | cons t rest ih =>
    rw [clear_cons_iff] at hclear
    obtain ⟨hfirst, hrest⟩ := hclear
    rw [linesFrom_cons]
    cases current with
    | none =>
      cases t with
      | instruction name =>
        have hnext := @ih (index + 1) (some ⟨name, []⟩) hrest
        simp [tokenRows, hnext, labelLines, lineFrom?, stillOpen, statementWords, Statement.openTokens,
          operandText]
      | statementEnd | value v | register name =>
        have hnext := @ih (index + 1) none hrest
        simp [tokenRows, hnext, labelLines, lineFrom?, stillOpen]
    | some s =>
      have hplaced : labelLines labels index = [] := by
        rw [labelLines, hfirst rfl]
        rfl
      cases t with
      | instruction name =>
        have hnext := @ih (index + 1) (some ⟨name, []⟩) hrest
        simp [tokenRows, hnext, hplaced, lineFrom?, stillOpen, statementWords, Statement.openTokens,
          operandText, Token.isOperand, Row.text]
      | statementEnd =>
        have hnext := @ih (index + 1) none hrest
        simp [tokenRows, hnext, hplaced, lineFrom?, stillOpen, Token.isOperand, Row.text]
      | value v =>
        have hnext := @ih (index + 1) (some (s.extend (.value v))) hrest
        simp [tokenRows, hnext, hplaced, lineFrom?, stillOpen, Token.isOperand, Statement.Operand.token]
      | register name =>
        have hnext := @ih (index + 1) (some (s.extend (.register name))) hrest
        simp [tokenRows, hnext, hplaced, lineFrom?, stillOpen, Token.isOperand, Statement.Operand.token]

/-- The labels that no token carries, by index and then by name. -/
def leftovers (labels : Labels) (size : Nat) : Labels :=
  (labels.filter fun l => decide (l.2 < 0) || decide ((size : Int) ≤ l.2)).mergeSort before

/-- The lines index by index, each behind the labels of its index, and then the labels left over. -/
def placedLines (ts : List Token) (labels : Labels) : List String :=
  (List.range ts.length).flatMap (fun index : Nat =>
    (labelsAt labels index).map labelLine ++ (lineAt? ts index).toList) ++
      (leftovers labels ts.length).map fun l => labelLine l.1

theorem text_of_clear (h : Clear labels 0 false ts) :
    text ts labels = .ok (join (placedLines ts labels)) := by
  have hrows := @map_text_tokenRows ts labels 0 none h
  refine (text_eq_ok_iff _ _ _).mpr ⟨h, ?_⟩
  rw [rows, List.map_append, hrows, placedLines, linesFrom]
  simp [lineFrom?_false, labelLines, leftoverNames, leftovers, Function.comp_def, Row.text]

/-- The first index at which a label points inside a statement is the one that is refused. -/
theorem tokenLines_of_inside {index : Nat} {words : Option (List String)} (hi : i < ts.length)
    (hopen : stillOpen words.isSome (ts.take i) = true)
    (hlabel : labelsAt labels ((index + i : Nat) : Int) ≠ [])
    (hfirst : ∀ j < i, stillOpen words.isSome (ts.take j) = true →
      labelsAt labels ((index + j : Nat) : Int) = []) :
    tokenLines labels index words ts =
      .error (.labelInsideStatement (labelsAt labels ((index + i : Nat) : Int)) (index + i)) := by
  induction ts generalizing index words i with
  | nil => exact absurd hi (Nat.not_lt_zero i)
  | cons t rest ih =>
    cases i with
    | zero =>
      obtain ⟨ws, rfl⟩ := Option.isSome_iff_exists.mp hopen
      cases t <;> exact if_pos hlabel
    | succ i =>
      have hshift (j : Nat) : index + (j + 1) = index + 1 + j := by omega
      rw [List.take_succ_cons, stillOpen_cons] at hopen
      rw [hshift] at hlabel ⊢
      have hlater (following : Option (List String))
          (hfollowing : following.isSome = stillOpen words.isSome [t]) :
          tokenLines labels (index + 1) following rest = .error (.labelInsideStatement
            (labelsAt labels ((index + 1 + i : Nat) : Int)) (index + 1 + i)) := by
        refine ih (Nat.lt_of_succ_lt_succ hi) (hfollowing ▸ hopen) hlabel fun j hj hjopen => ?_
        rw [← hshift]
        refine hfirst (j + 1) (by omega) ?_
        rw [List.take_succ_cons, stillOpen_cons, ← hfollowing, hjopen]
      cases words with
      | none =>
        cases t with
        | instruction name => exact congrArg (Except.map _) (hlater (some [name]) rfl)
        | statementEnd | value v | register name => exact congrArg (Except.map _) (hlater none rfl)
      | some ws =>
        have hplaced : labelsAt labels index = [] := hfirst 0 (by omega) rfl
        simp only [tokenLines, hplaced, ne_eq, not_true_eq_false, if_false]
        cases t with
        | instruction name => exact congrArg (Except.map _) (hlater (some [name]) rfl)
        | statementEnd => exact congrArg (Except.map _) (hlater none rfl)
        | value v | register name => exact hlater (some (ws ++ [_])) rfl

theorem text_of_first (h : Misplaced ts labels i) (hfirst : ∀ j < i, ¬ Misplaced ts labels j) :
    text ts labels = .error (.labelInsideStatement (labelsAt labels i) i) := by
  obtain ⟨hi, hinside, hlabel⟩ := h
  have hlines : tokenLines labels 0 none ts =
      .error (.labelInsideStatement (labelsAt labels ((0 + i : Nat) : Int)) (0 + i)) := by
    refine tokenLines_of_inside hi (stillOpen_take_iff.mpr hinside) ?_ fun j hj hopen => ?_
    · rw [Nat.zero_add]
      exact labelsAt_ne_nil_iff.mpr hlabel
    · by_contra hplaced
      rw [Nat.zero_add] at hplaced
      exact hfirst j hj ⟨by omega, stillOpen_take_iff.mp hopen, labelsAt_ne_nil_iff.mp hplaced⟩
  rw [text, lines, hlines, Nat.zero_add]
  rfl

/-! ## Every label once -/

theorem perm_labelsAt (labels : Labels) (index : Int) :
    (labelsAt labels index).Perm ((labels.filter fun l => l.2 == index).map Prod.fst) :=
  List.mergeSort_perm _ _

theorem pairwise_labelsAt (labels : Labels) (index : Int) :
    (labelsAt labels index).Pairwise (· ≤ ·) := by
  refine (List.pairwise_mergeSort ?_ ?_ _).imp fun h => of_decide_eq_true h
  · intro a b c hab hbc
    exact decide_eq_true (String.le_trans (of_decide_eq_true hab) (of_decide_eq_true hbc))
  · intro a b
    simpa using String.le_total a b

theorem before_iff {a b : String × Int} :
    before a b = true ↔ a.2 < b.2 ∨ a.2 = b.2 ∧ a.1 ≤ b.1 := by
  simp [before]

theorem perm_leftovers (labels : Labels) (size : Nat) :
    (leftovers labels size).Perm
      (labels.filter fun l => decide (l.2 < 0) || decide ((size : Int) ≤ l.2)) :=
  List.mergeSort_perm _ _

theorem pairwise_leftovers (labels : Labels) (size : Nat) :
    (leftovers labels size).Pairwise fun a b => a.2 < b.2 ∨ a.2 = b.2 ∧ a.1 ≤ b.1 := by
  refine (List.pairwise_mergeSort ?_ ?_ _).imp before_iff.mp
  · intro a b c hab hbc
    rw [before_iff] at hab hbc ⊢
    rcases hab with hab | ⟨hab, hab'⟩
    · rcases hbc with hbc | ⟨hbc, -⟩ <;> exact .inl (by omega)
    · rcases hbc with hbc | ⟨hbc, hbc'⟩
      · exact .inl (by omega)
      · exact .inr ⟨hab.trans hbc, String.le_trans hab' hbc'⟩
  · intro a b
    rw [Bool.or_eq_true, before_iff, before_iff]
    rcases Int.lt_trichotomy a.2 b.2 with h | h | h
    · exact .inl (.inl h)
    · rcases String.le_total a.1 b.1 with hname | hname
      · exact .inl (.inr ⟨h, hname⟩)
      · exact .inr (.inr ⟨h.symm, hname⟩)
    · exact .inr (.inl h)

theorem perm_flatMap_labelsAt (labels : Labels) (size : Nat) :
    ((List.range size).flatMap fun index : Nat => labelsAt labels index).Perm
      ((labels.filter fun l : String × Int => decide (0 ≤ l.2 ∧ l.2 < size)).map Prod.fst) := by
  induction size with
  | zero =>
    have hnone : (labels.filter fun l : String × Int => decide (0 ≤ l.2 ∧ l.2 < (0 : Nat))) = [] := by
      refine List.filter_eq_nil_iff.mpr fun l _ => ?_
      simp
    rw [hnone]
    exact .refl _
  | succ size ih =>
    have hsplit := List.filter_append_perm (fun l : String × Int => decide (l.2 < size))
      (labels.filter fun l : String × Int => decide (0 ≤ l.2 ∧ l.2 < (size + 1 : Nat)))
    rw [List.range_succ, List.flatMap_append, List.flatMap_singleton]
    refine ((ih.append (perm_labelsAt labels size)).trans ?_).trans (hsplit.map Prod.fst)
    rw [List.filter_filter, List.filter_filter, List.map_append]
    refine .append (.of_eq ?_) (.of_eq ?_)
    · refine congrArg _ (List.filter_congr fun l _ => ?_)
      rw [← Bool.decide_and]
      exact decide_eq_decide.mpr (by omega)
    · refine congrArg _ (List.filter_congr fun l _ => ?_)
      rw [← decide_not, ← Bool.decide_and, Bool.beq_eq_decide_eq]
      exact decide_eq_decide.mpr (by omega)

theorem perm_placed (labels : Labels) (size : Nat) :
    (((List.range size).flatMap fun index : Nat => labelsAt labels index) ++
      (leftovers labels size).map Prod.fst).Perm (labels.map Prod.fst) := by
  have hsplit := List.filter_append_perm (fun l : String × Int => decide (0 ≤ l.2 ∧ l.2 < size)) labels
  refine .trans ?_ (hsplit.map Prod.fst)
  rw [List.map_append]
  refine (perm_flatMap_labelsAt labels size).append ?_
  refine ((perm_leftovers labels size).map Prod.fst).trans (.of_eq ?_)
  refine congrArg _ (List.filter_congr fun l _ => ?_)
  rw [← Bool.decide_or, ← decide_not]
  exact decide_eq_decide.mpr (by omega)

/-- A listing is refused exactly when a label points inside a statement, and the refusal names the first
such index and all its labels. Any other listing has the lines of its tokens, each behind the labels of
its index, and last the labels of other indices: every label exactly once. -/
theorem text_places_labels (ts : List Token) (labels : Labels) :
    ((∃ fault, text ts labels = .error fault) ↔ ∃ index, Misplaced ts labels index) ∧
    (∀ index, Misplaced ts labels index → (∀ j < index, ¬ Misplaced ts labels j) →
      ∃ fault, text ts labels = .error fault ∧
        fault.message = "Label(s) " ++ String.intercalate ", " (labelsAt labels index) ++
          " point inside a statement (token " ++ toString index ++ ")") ∧
    ((∀ index, ¬ Misplaced ts labels index) → text ts labels = .ok (join (placedLines ts labels))) ∧
    (∀ index : Int, (labelsAt labels index).Pairwise (· ≤ ·) ∧
      (labelsAt labels index).Perm ((labels.filter fun l => l.2 == index).map Prod.fst)) ∧
    (leftovers labels ts.length).Pairwise (fun a b => a.2 < b.2 ∨ a.2 = b.2 ∧ a.1 ≤ b.1) ∧
    (leftovers labels ts.length).Perm
      (labels.filter fun l => decide (l.2 < 0) || decide ((ts.length : Int) ≤ l.2)) ∧
    (((List.range ts.length).flatMap fun index : Nat => labelsAt labels index) ++
      (leftovers labels ts.length).map Prod.fst).Perm (labels.map Prod.fst) := by
  have hplaced (h : ∀ index, ¬ Misplaced ts labels index) :
      text ts labels = .ok (join (placedLines ts labels)) :=
    text_of_clear (clear_iff.mpr h)
  refine ⟨⟨?_, ?_⟩, ?_, hplaced, ?_, ?_, ?_, ?_⟩
  · rintro ⟨fault, hfault⟩
    by_contra hnone
    rw [hplaced (not_exists.mp hnone)] at hfault
    cases hfault
  · intro hmisplaced
    classical
    exact ⟨_, text_of_first (Nat.find_spec hmisplaced) fun j hj => Nat.find_min hmisplaced hj⟩
  · intro index hindex hfirst
    exact ⟨_, text_of_first hindex hfirst, rfl⟩
  · intro index
    exact ⟨pairwise_labelsAt labels index, perm_labelsAt labels index⟩
  · exact pairwise_leftovers labels ts.length
  · exact perm_leftovers labels ts.length
  · exact perm_placed labels ts.length

def straying : List Token :=
  [.register "a", .instruction "SET", .register "a", .value (.int 5), .statementEnd, .statementEnd,
    .instruction "NOP", .instruction "HALT"]

def outerLabels : Labels :=
  [("z", 1), ("b", 6), ("before", -1)]

def innerLabels : Labels :=
  [("q", 7), ("x", 3), ("p", 3)]

theorem text_places_labels_straying :
    (∀ index, ¬ Misplaced straying outerLabels index) ∧
    text straying outerLabels = .ok (join [";; stray operand [a]", "z:", "SET [a] 5",
      ";; stray statement end", "b:", "NOP", "HALT", "before:"]) ∧
    Misplaced straying innerLabels 3 ∧ (∀ index < 3, ¬ Misplaced straying innerLabels index) ∧
    ∃ fault, text straying innerLabels = .error fault ∧
      fault.message = "Label(s) p, x point inside a statement (token 3)" := by
  have houter : ∀ index, ¬ Misplaced straying outerLabels index := by
    refine clear_iff.mp ?_
    rw [Clear]
    decide +kernel
  have hinner : Misplaced straying innerLabels 3 := by
    refine ⟨by decide, stillOpen_take_iff.mp (by decide), "p", by decide⟩
  have hfirst : ∀ index < 3, ¬ Misplaced straying innerLabels index := by
    rintro index hindex ⟨-, -, name, hname⟩
    simp only [innerLabels, List.mem_cons, Prod.mk.injEq, List.not_mem_nil, or_false] at hname
    omega
  obtain ⟨-, -, hplaced, -⟩ := text_places_labels straying outerLabels
  obtain ⟨-, hrefused, -⟩ := text_places_labels straying innerLabels
  refine ⟨houter, ?_, hinner, hfirst, ?_⟩
  · have hlines : placedLines straying outerLabels = [";; stray operand [a]", "z:", "SET [a] 5",
        ";; stray statement end", "b:", "NOP", "HALT", "before:"] := by
      decide +kernel
    rw [hplaced houter, hlines]
  · have hnames : labelsAt innerLabels (3 : Nat) = ["p", "x"] := by
      simp [labelsAt, sortNames, innerLabels, List.mergeSort, List.MergeSort.Internal.splitInTwo]
    obtain ⟨fault, hfault, hmessage⟩ := hrefused 3 hinner hfirst
    rw [hnames] at hmessage
    exact ⟨fault, hfault, hmessage.trans (by decide +kernel)⟩

end Listing

end LineAssembly
