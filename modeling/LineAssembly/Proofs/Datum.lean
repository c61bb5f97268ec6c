import LineAssembly.Datum
import Mathlib.Data.List.Forall2
import Mathlib.Logic.ExistsUnique

/-! # What data is accepted, and what is wrong with the rest

The rules by which data gives a value are stated here without the functions that apply them: what a value
is given by, and what is wrong with data that gives none. Main statement: of all data either exactly one
value is given or exactly one thing is wrong, and the functions find it. A value or a token is given by its
own data. What is wrong with a part is wrong with the whole, at the place of the part.
-/

set_option autoImplicit false

namespace LineAssembly

namespace Datum

/-- The integer that data stands for. -/
inductive Denotes : Datum → Int → Prop where
  | int (n : Int) : Denotes (.int n) n
  | no : Denotes (.bool false) 0
  | yes : Denotes (.bool true) 1
  | decimal {mantissa n : Int} {places : Nat} (h : mantissa = n * Int.pow 10 places) :
    Denotes (.decimal mantissa places) n
  | text {s : String} {n : Int} (h : IntegerText.read s = .ok n) : Denotes (.text s) n

theorem integer_eq_ok_iff {d : Datum} {n : Int} : d.integer = .ok n ↔ d.Denotes n := by
  constructor
  · intro h
    cases d with
    | int k =>
      cases h
      exact .int n
    | bool b => cases b <;> cases h <;> constructor
    | decimal mantissa places =>
      simp only [integer] at h
      split at h
      · rename_i hwhole
        cases h
        exact .decimal (Int.ediv_mul_cancel_of_emod_eq_zero hwhole).symm
      · cases h
    | text s =>
      simp only [integer] at h
      split at h
      · cases h
        exact .text ‹_›
      · cases h
      · cases h
    | null | list | object => cases h
  · rintro (_ | _ | _ | rfl | h)
    · rfl
    · rfl
    · rfl
    · rename_i places
      have hscale : Int.pow 10 places ≠ 0 := Int.pow_ne_zero (by decide)
      have hwhole : n * Int.pow 10 places % Int.pow 10 places = 0 := Int.mul_emod_left n _
      have hsame : n * Int.pow 10 places / Int.pow 10 places = n := Int.mul_ediv_cancel n hscale
      simp only [integer, if_pos hwhole, hsame]
    · simp only [integer, h]

theorem int32_eq_ok_iff {d : Datum} {k : Int32} : d.int32 = .ok k ↔ d.Denotes k.toInt := by
  rw [← integer_eq_ok_iff, int32]
  constructor
  · intro h
    split at h
    · cases h
    · rename_i n hn
      split at h
      · cases h
      · split at h
        · cases h
        · cases h
          rw [hn, Value.toInt_ofInt ⟨by omega, by omega⟩]
  · intro h
    obtain ⟨hleast, hgreatest⟩ := Value.toInt_inRange k
    simp only [h]
    rw [if_neg (by omega), if_neg (by omega), Int32.ofInt_toInt]

/-- Why data is no integer of the signed 32-bit range. -/
inductive NoInt32 : Datum → Reason → Prop where
  | null : NoInt32 .null .notInteger
  | list (items : List Datum) : NoInt32 (.list items) .notInteger
  | object (fields : List (String × Datum)) : NoInt32 (.object fields) .notInteger
  | fraction {mantissa : Int} {places : Nat} (h : ∀ n, mantissa ≠ n * Int.pow 10 places) :
    NoInt32 (.decimal mantissa places) .fraction
  | notNumeral {s : String} (h : IntegerText.read s = .error .malformed) : NoInt32 (.text s) .notNumeral
  | tooLong {s : String} (h : IntegerText.read s = .error .tooLong) : NoInt32 (.text s) .numeralTooLong
  | tooLarge {d : Datum} {n : Int} (h : d.Denotes n) (large : Value.greatestInt < n) : NoInt32 d .tooLarge
  | tooSmall {d : Datum} {n : Int} (h : d.Denotes n) (small : n < Value.leastInt) : NoInt32 d .tooSmall

theorem noInt32_of_integer {d : Datum} {reason : Reason} (h : d.integer = .error reason) :
    d.NoInt32 reason := by
  cases d with
  | null =>
    cases h
    exact .null
  | list items =>
    cases h
    exact .list items
  | object fields =>
    cases h
    exact .object fields
  | decimal mantissa places =>
    have hnone : ∀ n, mantissa ≠ n * Int.pow 10 places := by
      rintro n hn
      rw [integer_eq_ok_iff.mpr (.decimal hn)] at h
      cases h
    simp only [integer] at h
    split at h
    · cases h
    · cases h
      exact .fraction hnone
  | text s =>
    simp only [integer] at h
    split at h
    · cases h
    · cases h
      exact .notNumeral ‹_›
    · cases h
      exact .tooLong ‹_›
  | int n | bool b => cases h

theorem int32_eq_error_iff {d : Datum} {reason : Reason} :
    d.int32 = .error reason ↔ d.NoInt32 reason := by
  constructor
  · intro h
    rw [int32] at h
    split at h
    · cases h
      exact noInt32_of_integer ‹_›
    · rename_i n hn
      have hdenotes : d.Denotes n := integer_eq_ok_iff.mp hn
      split at h
      · cases h
        exact .tooLarge hdenotes ‹_›
      · split at h
        · cases h
          exact .tooSmall hdenotes ‹_›
        · cases h
  · intro h
    cases h with
    | null | list items | object fields => rfl
    | @fraction mantissa places h =>
      have hpart : ¬ mantissa % Int.pow 10 places = 0 := fun hwhole =>
        h _ (Int.ediv_mul_cancel_of_emod_eq_zero hwhole).symm
      simp only [int32, integer, if_neg hpart]
    | notNumeral h | tooLong h => simp only [int32, integer, h]
    | @tooLarge d n h large =>
      simp only [int32, integer_eq_ok_iff.mpr h, if_pos large]
    | @tooSmall d n h small =>
      have hlarge : ¬ Value.greatestInt < n := by
        rw [Value.leastInt] at small
        rw [Value.greatestInt]
        omega
      simp only [int32, integer_eq_ok_iff.mpr h, if_neg hlarge, if_pos small]

/-- Why data is no text. -/
inductive NoText : Datum → Reason → Prop where
  | other {d : Datum} (h : ∀ s, d ≠ .text s) : NoText d .notText

theorem asText_eq_ok_iff {d : Datum} {s : String} : d.asText = .ok s ↔ d = .text s := by
  constructor
  · intro h
    cases d <;> cases h
    rfl
  · rintro rfl
    rfl

theorem asText_eq_error_iff {d : Datum} {reason : Reason} :
    d.asText = .error reason ↔ d.NoText reason := by
  constructor
  · intro h
    cases d <;> cases h <;> exact .other nofun
  · rintro ⟨h⟩
    cases d with
    | text s => exact absurd rfl (h s)
    | null | bool | int | decimal | list | object => rfl

/-- What is wrong with a field: it is missing, or it is unfit. -/
inductive Wanting (unfit : Datum → Reason → Prop) (fields : List (String × Datum)) (name : String) :
    Reason → Prop where
  | missing (h : field? name fields = none) : Wanting unfit fields name .fieldMissing
  | unfit {d : Datum} {reason : Reason} (h : field? name fields = some d) (hunfit : unfit d reason) :
    Wanting unfit fields name reason

section Field

variable {α : Type} {kind name : String} {read : Datum → Except Reason α}
  {unfit : Datum → Reason → Prop} {fields : List (String × Datum)}

theorem wanting_or_read (hread : ∀ {d reason}, read d = .error reason ↔ unfit d reason)
    (fields : List (String × Datum)) (name : String) :
    (∃ reason, Wanting unfit fields name reason) ∨
      ∃ d a, field? name fields = some d ∧ read d = .ok a := by
  cases hd : field? name fields with
  | none => exact .inl ⟨_, .missing hd⟩
  | some d =>
    cases ha : read d with
    | error reason => exact .inl ⟨reason, .unfit hd (hread.mp ha)⟩
    | ok a => exact .inr ⟨d, a, rfl, ha⟩

theorem readField_of_wanting (hread : ∀ {d reason}, read d = .error reason ↔ unfit d reason)
    {reason : Reason} (h : Wanting unfit fields name reason) :
    readField kind name read fields = .error ⟨[kind, name], reason⟩ := by
  obtain hmissing | ⟨hd, hunfit⟩ := h
  · simp only [readField, hmissing]
  · simp only [readField, hd, hread.mpr hunfit]

theorem readField_of_read {d : Datum} {a : α} (hd : field? name fields = some d)
    (ha : read d = .ok a) : readField kind name read fields = .ok a := by
  simp only [readField, hd, ha]

end Field

theorem kindAndFields_of_text {kind : String} {fields : List (String × Datum)}
    (h : field? "kind" fields = some (.text kind)) :
    kindAndFields (.object fields) = .ok (some kind, fields) := by
  simp only [kindAndFields, h]

end Datum

open Datum

namespace Value

/-- The kinds of values. -/
def kinds : List String := ["int", "label", "register", "empty"]

/-- What a value is given by. Other fields may be there. -/
inductive Given : Datum → Value → Prop where
  | int {fields : List (String × Datum)} {d : Datum} {n : Int32}
    (kind : field? "kind" fields = some (.text "int")) (value : field? "value" fields = some d)
    (denotes : d.Denotes n.toInt) : Given (.object fields) (.int n)
  | label {fields : List (String × Datum)} {name : String}
    (kind : field? "kind" fields = some (.text "label"))
    (value : field? "name" fields = some (.text name)) : Given (.object fields) (.label name)
  | register {fields : List (String × Datum)} {name : String}
    (kind : field? "kind" fields = some (.text "register"))
    (value : field? "name" fields = some (.text name)) : Given (.object fields) (.register name)
  | empty {fields : List (String × Datum)} (kind : field? "kind" fields = some (.text "empty")) :
    Given (.object fields) .empty

/-- What is wrong with data that should give a value, and where. -/
inductive Faulty : Datum → Refusal → Prop where
  | notObject {x : Datum} (h : ∀ fields, x ≠ .object fields) : Faulty x ⟨[], .notObject⟩
  | kindMissing {fields : List (String × Datum)} (h : field? "kind" fields = none) :
    Faulty (.object fields) ⟨[], .kindMissing⟩
  | kindUnknown {fields : List (String × Datum)} {d : Datum} (kind : field? "kind" fields = some d)
    (unknown : ∀ name ∈ kinds, d ≠ .text name) : Faulty (.object fields) ⟨[], .kindUnknown⟩
  | int {fields : List (String × Datum)} {reason : Reason}
    (kind : field? "kind" fields = some (.text "int")) (h : Wanting NoInt32 fields "value" reason) :
    Faulty (.object fields) ⟨["int", "value"], reason⟩
  | label {fields : List (String × Datum)} {reason : Reason}
    (kind : field? "kind" fields = some (.text "label")) (h : Wanting NoText fields "name" reason) :
    Faulty (.object fields) ⟨["label", "name"], reason⟩
  | register {fields : List (String × Datum)} {reason : Reason}
    (kind : field? "kind" fields = some (.text "register")) (h : Wanting NoText fields "name" reason) :
    Faulty (.object fields) ⟨["register", "name"], reason⟩

theorem ofDatum_of_given {x : Datum} {v : Value} (h : Given x v) : ofDatum x = .ok v := by
  cases h with
  | int kind value denotes =>
    simp only [ofDatum, kindAndFields_of_text kind, readField_of_read value (int32_eq_ok_iff.mpr denotes)]
    rfl
  | label kind value | register kind value =>
    simp only [ofDatum, kindAndFields_of_text kind, readField_of_read value (asText_eq_ok_iff.mpr rfl)]
    rfl
  | empty kind => simp only [ofDatum, kindAndFields_of_text kind]

theorem ofDatum_of_faulty {x : Datum} {r : Refusal} (h : Faulty x r) : ofDatum x = .error r := by
  cases h with
  | notObject h =>
    cases x with
    | object fields => exact absurd rfl (h fields)
    | null | bool | int | decimal | text | list => rfl
  | kindMissing h => simp only [ofDatum, kindAndFields, h]
  | @kindUnknown fields d kind unknown =>
    cases d with
    | text name =>
      have hname : name ≠ "int" ∧ name ≠ "label" ∧ name ≠ "register" ∧ name ≠ "empty" := by
        simpa [kinds] using unknown
      simp [ofDatum, kindAndFields_of_text kind, hname]
    | null | bool | int | decimal | list | object => simp only [ofDatum, kindAndFields, kind]
  | int kind h =>
    simp only [ofDatum, kindAndFields_of_text kind, readField_of_wanting int32_eq_error_iff h]
    rfl
  | label kind h | register kind h =>
    simp only [ofDatum, kindAndFields_of_text kind, readField_of_wanting asText_eq_error_iff h]
    rfl

/-- The rules leave no data out. -/
theorem given_or_faulty (x : Datum) : (∃ v, Given x v) ∨ ∃ r, Faulty x r := by
  cases x with
  | object fields =>
    cases hkind : field? "kind" fields with
    | none => exact .inr ⟨_, .kindMissing hkind⟩
    | some d =>
      by_cases hknown : ∃ name ∈ kinds, d = .text name
      · obtain ⟨name, hname, rfl⟩ := hknown
        simp only [kinds, List.mem_cons, List.not_mem_nil, or_false] at hname
        obtain rfl | rfl | rfl | rfl := hname
        · obtain ⟨reason, h⟩ | ⟨d, k, hd, hk⟩ := wanting_or_read int32_eq_error_iff fields "value"
          · exact .inr ⟨_, .int hkind h⟩
          · exact .inl ⟨_, .int hkind hd (int32_eq_ok_iff.mp hk)⟩
        · obtain ⟨reason, h⟩ | ⟨d, s, hd, hs⟩ := wanting_or_read asText_eq_error_iff fields "name"
          · exact .inr ⟨_, .label hkind h⟩
          · exact .inl ⟨_, .label hkind (asText_eq_ok_iff.mp hs ▸ hd)⟩
        · obtain ⟨reason, h⟩ | ⟨d, s, hd, hs⟩ := wanting_or_read asText_eq_error_iff fields "name"
          · exact .inr ⟨_, .register hkind h⟩
          · exact .inl ⟨_, .register hkind (asText_eq_ok_iff.mp hs ▸ hd)⟩
        · exact .inl ⟨_, .empty hkind⟩
      · refine .inr ⟨_, .kindUnknown hkind fun name hname he => ?_⟩
        exact hknown ⟨name, hname, he⟩
  | null | bool | int | decimal | text | list => exact .inr ⟨_, .notObject nofun⟩

-- The rules were matched one by one, so the reverse directions follow from their leaving nothing out.
theorem ofDatum_eq_ok_iff {x : Datum} {v : Value} : ofDatum x = .ok v ↔ Given x v := by
  constructor
  · intro h
    obtain ⟨other, hgiven⟩ | ⟨r, hfaulty⟩ := given_or_faulty x
    · cases (ofDatum_of_given hgiven).symm.trans h
      exact hgiven
    · cases (ofDatum_of_faulty hfaulty).symm.trans h
  · exact ofDatum_of_given

theorem ofDatum_eq_error_iff {x : Datum} {r : Refusal} : ofDatum x = .error r ↔ Faulty x r := by
  constructor
  · intro h
    obtain ⟨v, hgiven⟩ | ⟨other, hfaulty⟩ := given_or_faulty x
    · cases (ofDatum_of_given hgiven).symm.trans h
    · cases (ofDatum_of_faulty hfaulty).symm.trans h
      exact hfaulty
  · exact ofDatum_of_faulty

/-- One value is given, or one thing is wrong. -/
theorem existsUnique_outcome (x : Datum) :
    ((∃! v, Given x v) ∧ ∀ r, ¬ Faulty x r) ∨ (∀ v, ¬ Given x v) ∧ ∃! r, Faulty x r := by
  simp only [← ofDatum_eq_ok_iff, ← ofDatum_eq_error_iff]
  cases ofDatum x with
  | ok v => exact .inl ⟨⟨v, rfl, fun other h => (Except.ok.inj h).symm⟩, nofun⟩
  | error r => exact .inr ⟨nofun, r, rfl, fun other h => (Except.error.inj h).symm⟩

/-- An integer is accepted as it is, or not at all. -/
theorem accepts_int_iff {fields : List (String × Datum)} {d : Datum} {n : Int}
    (kind : field? "kind" fields = some (.text "int")) (value : field? "value" fields = some d)
    (denotes : d.Denotes n) :
    (∃ v, ofDatum (.object fields) = .ok v) ↔ leastInt ≤ n ∧ n ≤ greatestInt := by
  simp only [ofDatum_eq_ok_iff]
  constructor
  · rintro ⟨v, hgiven⟩
    cases hgiven with
    | @int _ other k _ hother hk =>
      cases value.symm.trans hother
      cases (integer_eq_ok_iff.mpr denotes).symm.trans (integer_eq_ok_iff.mpr hk)
      exact toInt_inRange k
    | label hkind | register hkind | empty hkind =>
      have hsame := Datum.text.inj (Option.some.inj (kind.symm.trans hkind))
      exact absurd hsame (by decide)
  · intro hrange
    refine ⟨.int (Int32.ofInt n), .int kind value ?_⟩
    rwa [toInt_ofInt hrange]

theorem given_toDatum (v : Value) : Given v.toDatum v := by
  cases v with
  | int n => exact .int rfl rfl (.int n.toInt)
  | label name => exact .label rfl rfl
  | register name => exact .register rfl rfl
  | empty => exact .empty rfl

end Value

namespace Token

/-- A value in its token. What is wrong with the value is wrong with the token, at its field. -/
def ofValue : Except Refusal Value → Except Refusal Token
  | .ok v => .ok (.value v)
  | .error r => .error ⟨["value", "value"] ++ r.path, r.reason⟩

theorem ofDatum_value {fields : List (String × Datum)} {x : Datum}
    (kind : field? "kind" fields = some (.text "value")) (value : field? "value" fields = some x) :
    ofDatum (.object fields) = ofValue (Value.ofDatum x) := by
  simp only [ofDatum, kindAndFields_of_text kind, valueField, value]
  cases Value.ofDatum x <;> rfl

theorem ofDatum_toDatum (t : Token) : ofDatum t.toDatum = .ok t := by
  cases t with
  | value v => rw [toDatum, ofDatum_value rfl rfl, Value.ofDatum_of_given v.given_toDatum, ofValue]
  | instruction name | register name | statementEnd => rfl

/-- The refusals of the elements of a list, each under its index, where the first element has the given
index. -/
def refusals (index : Nat) (items : List Datum) : List Refusal :=
  (items.zipIdx index).filterMap fun element =>
    match ofDatum element.1 with
    | .ok _ => none
    | .error r => some (r.under [toString element.2])

theorem listFrom_eq_ok_iff {index : Nat} {items : List Datum} {ts : List Token} :
    listFrom index items = .ok ts ↔ List.Forall₂ (fun d t => ofDatum d = .ok t) items ts := by
  induction items generalizing index ts with
  | nil =>
    rw [listFrom, List.forall₂_nil_left_iff]
    exact ⟨fun h => (Except.ok.inj h).symm, fun h => h ▸ rfl⟩
  | cons d rest ih =>
    simp only [List.forall₂_cons_left_iff, listFrom, ← @ih (index + 1)]
    cases ofDatum d <;> cases listFrom (index + 1) rest <;> simp [eq_comm]

theorem listFrom_eq_error_iff {index : Nat} {items : List Datum} {rs : List Refusal} :
    listFrom index items = .error rs ↔ refusals index items ≠ [] ∧ rs = refusals index items := by
  induction items generalizing index rs with
  | nil => simp [listFrom, refusals]
  | cons d rest ih =>
    have hreported {reported : List Refusal} (h : reported ≠ []) :
        (Except.error reported : Except (List Refusal) (List Token)) = .error rs ↔
          reported ≠ [] ∧ rs = reported :=
      ⟨fun he => ⟨h, (Except.error.inj he).symm⟩, fun he => congrArg Except.error he.2.symm⟩
    rw [refusals, List.zipIdx_cons, List.filterMap_cons, ← refusals, listFrom]
    cases hrest : listFrom (index + 1) rest with
    | ok ts =>
      have hnone : refusals (index + 1) rest = [] := by
        by_contra hsome
        rw [ih.mpr ⟨hsome, rfl⟩] at hrest
        cases hrest
      rw [hnone]
      cases ofDatum d with
      | ok token => exact ⟨nofun, fun h => absurd rfl h.1⟩
      | error r => exact hreported (List.cons_ne_nil _ _)
    | error others =>
      obtain ⟨hsome, rfl⟩ := ih.mp hrest
      cases ofDatum d with
      | ok token => exact hreported hsome
      | error r => exact hreported (List.cons_ne_nil _ _)

end Token

namespace Datum

/-- Data as a value: one value is given or one thing is wrong, and reading it says which. The data of the
value that was read gives the same value. -/
structure ReadAsValue (x : Datum) : Prop where
  outcome : ((∃! v, Value.Given x v) ∧ ∀ r, ¬ Value.Faulty x r) ∨
    (∀ v, ¬ Value.Given x v) ∧ ∃! r, Value.Faulty x r
  accepted : ∀ v, Value.ofDatum x = .ok v ↔ Value.Given x v
  refused : ∀ r, Value.ofDatum x = .error r ↔ Value.Faulty x r
  inRange : ∀ n, Value.ofDatum x = .ok (.int n) →
    Value.leastInt ≤ n.toInt ∧ n.toInt ≤ Value.greatestInt
  again : ∀ v, Value.ofDatum x = .ok v → Value.ofDatum v.toDatum = .ok v

/-- The elements of a list are tokens, or every element that is none is reported under its index. -/
structure ReadAsTokens (items : List Datum) : Prop where
  accepted : ∀ ts, Token.listOfData items = .ok ts ↔
    List.Forall₂ (fun d t => Token.ofDatum d = .ok t) items ts
  refused : ∀ rs, Token.listOfData items = .error rs ↔
    Token.refusals 0 items ≠ [] ∧ rs = Token.refusals 0 items

theorem readAsValue (x : Datum) : x.ReadAsValue where
  outcome := Value.existsUnique_outcome x
  accepted _ := Value.ofDatum_eq_ok_iff
  refused _ := Value.ofDatum_eq_error_iff
  inRange n _ := Value.toInt_inRange n
  again v _ := Value.ofDatum_of_given v.given_toDatum

theorem readAsTokens (items : List Datum) : ReadAsTokens items :=
  ⟨fun _ => Token.listFrom_eq_ok_iff, fun _ => Token.listFrom_eq_error_iff⟩

/-- Reading undoes writing, and the reading of a part is a part of the reading of the whole. -/
theorem validation_composes :
    (∀ x : Datum, x.ReadAsValue) ∧
    (∀ fields d n, field? "kind" fields = some (.text "int") → field? "value" fields = some d →
      d.Denotes n →
        ((∃ v, Value.ofDatum (.object fields) = .ok v) ↔
          Value.leastInt ≤ n ∧ n ≤ Value.greatestInt)) ∧
    (∀ v : Value, Value.ofDatum v.toDatum = .ok v) ∧
    (∀ t : Token, Token.ofDatum t.toDatum = .ok t) ∧
    (∀ fields x, field? "kind" fields = some (.text "value") → field? "value" fields = some x →
      Token.ofDatum (.object fields) = Token.ofValue (Value.ofDatum x)) ∧
    ∀ items : List Datum, ReadAsTokens items :=
  ⟨readAsValue, fun _ _ _ => Value.accepts_int_iff, fun v => Value.ofDatum_of_given v.given_toDatum,
    Token.ofDatum_toDatum, fun _ _ => Token.ofDatum_value, readAsTokens⟩

/-- A text one above the range, in an object with a field too many. -/
def tooLargeText : List (String × Datum) :=
  [("note", .null), ("kind", .text "int"), ("value", .text "2147483648")]

/-- The same inside a value token, between a token and data that is none. -/
def mixedTokens : List Datum :=
  [.object [("kind", .text "end")],
    .object [("value", .object tooLargeText), ("kind", .text "value")], .list []]

theorem validation_composes_mixed :
    Denotes (.text "2147483648") 2147483648 ∧
    (¬ ∃ v, Value.ofDatum (.object tooLargeText) = .ok v) ∧
    Value.ofDatum (.object tooLargeText) = .error ⟨["int", "value"], .tooLarge⟩ ∧
    Token.listOfData mixedTokens =
      .error [⟨["1", "value", "value", "int", "value"], .tooLarge⟩, ⟨["2"], .notObject⟩] := by
  obtain ⟨hvalue, hint, -, -, hnested, htokens⟩ := validation_composes
  have hdenotes : Denotes (.text "2147483648") 2147483648 := .text (by decide +kernel)
  have hnone := mt (hint tooLargeText _ _ rfl rfl hdenotes).mp (by decide)
  have hrefused : Value.ofDatum (.object tooLargeText) = .error ⟨["int", "value"], .tooLarge⟩ :=
    ((hvalue _).refused _).mpr (.int rfl (.unfit rfl (.tooLarge hdenotes (by decide))))
  have hinside : Token.ofDatum (.object [("value", .object tooLargeText), ("kind", .text "value")]) =
      .error ⟨["value", "value", "int", "value"], .tooLarge⟩ := by
    rw [hnested _ _ rfl rfl, hrefused]
    rfl
  have hrefusals : Token.refusals 0 mixedTokens =
      [⟨["1", "value", "value", "int", "value"], .tooLarge⟩, ⟨["2"], .notObject⟩] := by
    simp only [Token.refusals, mixedTokens, List.zipIdx_cons, List.zipIdx_nil, List.filterMap_cons,
      hinside]
    rfl
  exact ⟨hdenotes, hnone, hrefused,
    ((htokens _).refused _).mpr ⟨by rw [hrefusals]; exact List.cons_ne_nil _ _, hrefusals.symm⟩⟩

end Datum

end LineAssembly
