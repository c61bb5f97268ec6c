import LineAssembly.Listing
import LineAssembly.Proofs.Statement
import Mathlib.Data.List.Basic

/-! # The rows of a listing

A listing is a list of rows, known by what they stand for before they are written: a label, a statement
or a token outside any statement. Main statement: the lines of a token stream are the texts of its rows
exactly when no label points inside a statement.
-/

set_option autoImplicit false

namespace LineAssembly.Listing

inductive Row where
  | label (name : String)
  | statement (s : Statement)
  | stray (t : Token)
deriving DecidableEq, Repr

def statementWords (s : Statement) : List String :=
  s.openTokens.map operandText

def Row.text : Row → String
  | .label name => labelLine name
  | .statement s => statementLine (statementWords s)
  | .stray .statementEnd => strayEndLine
  | .stray t => strayOperandLine t

theorem toList_text_stray {t : Token} (h : t ≠ .statementEnd) :
    (Row.stray t).text.toList = ";; stray operand ".toList ++ (operandText t).toList := by
  cases t with
  | statementEnd => exact absurd rfl h
  | instruction name | value v | register name => exact String.toList_append

@[simp] theorem statementWords_extend (s : Statement) (o : Statement.Operand) :
    statementWords (s.extend o) = statementWords s ++ [operandText o.token] := by
  simp [statementWords]

@[simp] theorem text_comp_label : Row.text ∘ Row.label = labelLine :=
  rfl

/-- The rows of the tokens from an index on, while a statement may be open. -/
def tokenRows (labels : Labels) : Nat → Option Statement → List Token → List Row
  | _, none, [] => []
  | _, some s, [] => [.statement s]
  | index, none, t :: rest =>
    (labelsAt labels index).map .label ++
      match t with
      | .instruction name => tokenRows labels (index + 1) (some ⟨name, []⟩) rest
      | t => .stray t :: tokenRows labels (index + 1) none rest
  | index, some s, t :: rest =>
    match t with
    | .instruction name => .statement s :: tokenRows labels (index + 1) (some ⟨name, []⟩) rest
    | .statementEnd => .statement s :: tokenRows labels (index + 1) none rest
    | .value v => tokenRows labels (index + 1) (some (s.extend (.value v))) rest
    | .register name => tokenRows labels (index + 1) (some (s.extend (.register name))) rest

def stillOpen : Bool → List Token → Bool
  | isOpen, [] => isOpen
  | _, .instruction _ :: rest => stillOpen true rest
  | _, .statementEnd :: rest => stillOpen false rest
  | isOpen, _ :: rest => stillOpen isOpen rest

/-- No label points inside a statement. -/
def Clear (labels : Labels) (index : Nat) (isOpen : Bool) (ts : List Token) : Prop :=
  ∀ i < ts.length, stillOpen isOpen (ts.take i) = true → labelsAt labels ((index + i : Nat) : Int) = []

theorem clear_nil (labels : Labels) (index : Nat) (isOpen : Bool) : Clear labels index isOpen [] := by
  intro i hi
  exact absurd hi (Nat.not_lt_zero i)

theorem stillOpen_cons (isOpen : Bool) (t : Token) (ts : List Token) :
    stillOpen isOpen (t :: ts) = stillOpen (stillOpen isOpen [t]) ts := by
  cases t <;> simp only [stillOpen]

theorem stillOpen_append (isOpen : Bool) (ts others : List Token) :
    stillOpen isOpen (ts ++ others) = stillOpen (stillOpen isOpen ts) others := by
  induction ts generalizing isOpen with
  | nil => rfl
  | cons t rest ih => rw [List.cons_append, stillOpen_cons, ih, ← stillOpen_cons]

theorem stillOpen_take_succ {ts : List Token} {t : Token} {i : Nat} (isOpen : Bool)
    (h : ts[i]? = some t) :
    stillOpen isOpen (ts.take (i + 1)) = stillOpen (stillOpen isOpen (ts.take i)) [t] := by
  rw [List.take_add_one, h, stillOpen_append]
  rfl

/-- A token index at which no statement is open. -/
def AtBoundary (ts : List Token) (index : Nat) : Prop :=
  index ≤ ts.length ∧ stillOpen false (ts.take index) = false

theorem AtBoundary.append {ts others : List Token} {index : Nat} (hts : stillOpen false ts = false)
    (h : AtBoundary others index) : AtBoundary (ts ++ others) (ts.length + index) := by
  obtain ⟨hle, hclosed⟩ := h
  constructor
  · rw [List.length_append]
    omega
  · rw [List.take_append, List.take_of_length_le (by omega), Nat.add_sub_cancel_left,
      stillOpen_append, hts, hclosed]

theorem clear_cons_iff {labels : Labels} {index : Nat} {isOpen : Bool} {t : Token} {ts : List Token} :
    Clear labels index isOpen (t :: ts) ↔
      (isOpen = true → labelsAt labels index = []) ∧
        Clear labels (index + 1) (stillOpen isOpen [t]) ts := by
  constructor
  · intro h
    constructor
    · exact h 0 (by simp)
    · intro i hi hopen
      have hnext := h (i + 1) (by simpa using hi) (by rw [List.take_succ_cons, stillOpen_cons, hopen])
      rwa [Nat.add_right_comm, Nat.add_assoc]
  · rintro ⟨hfirst, hrest⟩ i hi hopen
    cases i with
    | zero => exact hfirst hopen
    | succ i =>
      rw [List.take_succ_cons, stillOpen_cons] at hopen
      have hnext := hrest i (by simpa using hi) hopen
      rwa [Nat.add_assoc, Nat.add_comm 1] at hnext

theorem map_eq_ok_iff {ε α β : Type} {x : Except ε α} {p : Prop} {r : α}
    (h : ∀ a, x = .ok a ↔ p ∧ a = r) (f : α → β) (b : β) : x.map f = .ok b ↔ p ∧ b = f r := by
  cases x with
  | error e =>
    have hp : ¬ p := fun hp => by simpa using (h r).mpr ⟨hp, rfl⟩
    simp [Except.map, hp]
  | ok a =>
    obtain ⟨hp, rfl⟩ := (h a).mp rfl
    simp [Except.map, hp, eq_comm]

/-- The lines are the texts of the rows, and are refused only for a label inside a statement. -/
theorem tokenLines_eq_ok_iff (labels : Labels) (index : Nat) (current : Option Statement)
    (ts : List Token) (ls : List String) :
    tokenLines labels index (current.map statementWords) ts = .ok ls ↔
      Clear labels index current.isSome ts ∧ ls = (tokenRows labels index current ts).map Row.text := by
  induction ts generalizing index current ls with
  | nil => cases current <;> simp [tokenLines, tokenRows, clear_nil, Row.text, eq_comm]
  | cons t rest ih =>
    rw [clear_cons_iff]
    cases current with
    | none =>
      cases t with
      | instruction name =>
        refine (map_eq_ok_iff (ih (index + 1) (some ⟨name, []⟩)) _ ls).trans ?_
        simp [tokenRows, stillOpen, labelLines]
      | statementEnd =>
        refine (map_eq_ok_iff (ih (index + 1) none) _ ls).trans ?_
        simp [tokenRows, stillOpen, labelLines, Row.text]
      | value v =>
        refine (map_eq_ok_iff (ih (index + 1) none) _ ls).trans ?_
        simp [tokenRows, stillOpen, labelLines, Row.text]
      | register name =>
        refine (map_eq_ok_iff (ih (index + 1) none) _ ls).trans ?_
        simp [tokenRows, stillOpen, labelLines, Row.text]
    | some s =>
      by_cases hinside : labelsAt labels index = []
      · simp only [Option.map_some, tokenLines, hinside, ne_eq, not_true_eq_false, if_false,
          implies_true, true_and]
        cases t with
        | instruction name =>
          exact map_eq_ok_iff (ih (index + 1) (some ⟨name, []⟩)) _ ls
        | statementEnd => exact map_eq_ok_iff (ih (index + 1) none) _ ls
        | value v =>
          have h := ih (index + 1) (some (s.extend (.value v))) ls
          rw [Option.map_some, statementWords_extend] at h
          exact h
        | register name =>
          have h := ih (index + 1) (some (s.extend (.register name))) ls
          rw [Option.map_some, statementWords_extend] at h
          exact h
      · simp [tokenLines, hinside]

def leftoverNames (labels : Labels) (size : Nat) : List String :=
  ((labels.filter (fun l => decide (l.2 < 0) || decide ((size : Int) ≤ l.2))).mergeSort before).map
    Prod.fst

/-- All rows of a listing: those of the tokens, then the labels that no token carries. -/
def rows (ts : List Token) (labels : Labels) : List Row :=
  tokenRows labels 0 none ts ++ (leftoverNames labels ts.length).map .label

theorem text_eq_ok_iff (ts : List Token) (labels : Labels) (written : String) :
    text ts labels = .ok written ↔
      Clear labels 0 false ts ∧ written = join ((rows ts labels).map Row.text) := by
  have hlines := map_eq_ok_iff (tokenLines_eq_ok_iff labels 0 none ts)
    (· ++ leftoverLines labels ts.length)
  refine (map_eq_ok_iff hlines join written).trans ?_
  simp [rows, leftoverNames, leftoverLines, Function.comp_def, Row.text]

theorem mem_labelsAt {labels : Labels} {index : Int} {name : String} :
    name ∈ labelsAt labels index ↔ (name, index) ∈ labels := by
  simp [labelsAt, sortNames]

theorem mem_leftoverNames {labels : Labels} {size : Nat} {name : String} :
    name ∈ leftoverNames labels size ↔
      ∃ index, (name, index) ∈ labels ∧ (index < 0 ∨ (size : Int) ≤ index) := by
  simp [leftoverNames]

end LineAssembly.Listing
