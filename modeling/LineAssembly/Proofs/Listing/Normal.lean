import LineAssembly.Proofs.Listing.Rows
import LineAssembly.Proofs.Table
import Mathlib.Data.Nat.Basic
import Mathlib.Order.Basic

/-! # The normal form of a token stream

A listing cannot show tokens outside statements and shows every statement as a finished one. What it keeps
of a stream is the stream's normal form, and a label that pointed at a token points at as many tokens of
the normal form as come from before it.
-/

set_option autoImplicit false

namespace LineAssembly.Listing

/-- The stream without the tokens outside statements, where a statement that another one interrupts, or
that the end of the stream cuts off, is given its end. -/
def normaliseFrom : Bool → List Token → List Token
  | false, [] => []
  | true, [] => [.statementEnd]
  | false, .instruction name :: rest => .instruction name :: normaliseFrom true rest
  | false, _ :: rest => normaliseFrom false rest
  | true, .instruction name :: rest =>
    .statementEnd :: .instruction name :: normaliseFrom true rest
  | true, .statementEnd :: rest => .statementEnd :: normaliseFrom false rest
  | true, t :: rest => t :: normaliseFrom true rest

def normalise (ts : List Token) : List Token :=
  normaliseFrom false ts

/-- Where a label with the given index stands in the normal form. -/
def position (ts : List Token) (index : Int) : Nat :=
  if 0 ≤ index ∧ index < ts.length then (normalise (ts.take index.toNat)).length
  else (normalise ts).length

def Row.tokens : Row → List Token
  | .statement s => s.tokens
  | _ => []

/-- The labels among some rows, bound to the tokens in front of them. -/
def bindings : Nat → List Row → List (String × Nat)
  | _, [] => []
  | base, .label name :: rest => (name, base) :: bindings base rest
  | base, .statement s :: rest => bindings (base + s.tokens.length) rest
  | base, .stray _ :: rest => bindings base rest

def currentTokens (current : Option Statement) : List Token :=
  (current.map Statement.openTokens).getD []

/-- The label of a row has one property, or all of its tokens have another. -/
def Row.All (named : String → Prop) (p : Token → Prop) : Row → Prop
  | .label name => named name
  | .statement s => ∀ t ∈ s.openTokens, p t
  | .stray t => p t

theorem Row.All.imp {named : String → Prop} {p q : Token → Prop} {r : Row} (h : r.All named p)
    (hpq : ∀ t, p t → q t) : r.All named q := by
  cases r with
  | label name => exact h
  | statement s => exact fun t ht => hpq t (h t ht)
  | stray t => exact hpq t h

theorem all_of_mem_tokenRows {named : String → Prop} {p : Token → Prop} {labels : Labels}
    (hlabels : ∀ l ∈ labels, named l.1) {index : Nat} {current : Option Statement} {ts : List Token}
    (htokens : ∀ t ∈ currentTokens current ++ ts, p t) :
    ∀ r ∈ tokenRows labels index current ts, r.All named p := by
  induction ts generalizing index current with
  | nil =>
    cases current with
    | none => simp [tokenRows]
    | some s => simpa [tokenRows, Row.All, currentTokens] using htokens
  | cons t rest ih =>
    have hplaced : ∀ r ∈ (labelsAt labels index).map Row.label, r.All named p := by
      intro r hr
      obtain ⟨name, hname, rfl⟩ := List.mem_map.mp hr
      exact hlabels _ (mem_labelsAt.mp hname)
    cases current with
    | none =>
      have ht : p t := htokens t List.mem_cons_self
      have hrest : ∀ u ∈ rest, p u := fun u hu => htokens u (List.mem_cons_of_mem _ hu)
      intro r hr
      cases t with
      | instruction name =>
        rcases List.mem_append.mp hr with hr | hr
        · exact hplaced r hr
        · exact @ih (index + 1) (some ⟨name, []⟩) htokens r hr
      | statementEnd | value v | register name =>
        rcases List.mem_append.mp hr with hr | hr
        · exact hplaced r hr
        · rcases List.mem_cons.mp hr with rfl | hr
          · exact ht
          · exact @ih (index + 1) none hrest r hr
    | some s =>
      have hs : ∀ u ∈ s.openTokens, p u := fun u hu => htokens u (List.mem_append_left _ hu)
      have hnext : ∀ u ∈ t :: rest, p u := fun u hu => htokens u (List.mem_append_right _ hu)
      intro r hr
      cases t with
      | instruction name =>
        rcases List.mem_cons.mp hr with rfl | hr
        · exact hs
        · exact @ih (index + 1) (some ⟨name, []⟩) hnext r hr
      | statementEnd =>
        rcases List.mem_cons.mp hr with rfl | hr
        · exact hs
        · exact @ih (index + 1) none (fun u hu => hnext u (List.mem_cons_of_mem _ hu)) r hr
      | value v =>
        refine @ih (index + 1) (some (s.extend (.value v))) ?_ r hr
        simpa [currentTokens, Statement.Operand.token] using htokens
      | register name =>
        refine @ih (index + 1) (some (s.extend (.register name))) ?_ r hr
        simpa [currentTokens, Statement.Operand.token] using htokens

theorem all_of_mem_rows {named : String → Prop} {p : Token → Prop} {labels : Labels} {ts : List Token}
    (hlabels : ∀ l ∈ labels, named l.1) (htokens : ∀ t ∈ ts, p t) :
    ∀ r ∈ rows ts labels, r.All named p := by
  intro r hr
  rcases List.mem_append.mp hr with hr | hr
  · exact all_of_mem_tokenRows hlabels htokens r hr
  · obtain ⟨name, hname, rfl⟩ := List.mem_map.mp hr
    obtain ⟨index, hmem, -⟩ := mem_leftoverNames.mp hname
    exact hlabels _ hmem

theorem flatMap_tokens_labels (names : List String) :
    (names.map Row.label).flatMap Row.tokens = [] := by
  induction names with
  | nil => rfl
  | cons name rest ih => exact ih

theorem flatMap_tokens_tokenRows (labels : Labels) (index : Nat) (current : Option Statement)
    (ts : List Token) :
    (tokenRows labels index current ts).flatMap Row.tokens =
      currentTokens current ++ normaliseFrom current.isSome ts := by
  induction ts generalizing index current with
  | nil => cases current <;> simp [tokenRows, normaliseFrom, currentTokens, Row.tokens, Statement.tokens]
  | cons t rest ih =>
    cases current with
    | none =>
      cases t <;>
        simp [tokenRows, normaliseFrom, currentTokens, Row.tokens, ih, flatMap_tokens_labels,
          Statement.openTokens]
    | some s =>
      cases t <;>
        simp [tokenRows, normaliseFrom, currentTokens, Row.tokens, ih, Statement.tokens,
          Statement.Operand.token]
      simp [Statement.openTokens]

theorem flatMap_tokens_rows (ts : List Token) (labels : Labels) :
    (rows ts labels).flatMap Row.tokens = normalise ts := by
  rw [rows, List.flatMap_append, flatMap_tokens_tokenRows, flatMap_tokens_labels, List.append_nil]
  rfl

theorem bindings_append (base : Nat) (rs others : List Row) :
    bindings base (rs ++ others) =
      bindings base rs ++ bindings (base + (rs.flatMap Row.tokens).length) others := by
  induction rs generalizing base with
  | nil => rfl
  | cons r rest ih =>
    cases r <;> simp [bindings, ih, Row.tokens, Nat.add_assoc]

theorem bindings_labels (base : Nat) (names : List String) :
    bindings base (names.map Row.label) = names.map (·, base) := by
  induction names with
  | nil => rfl
  | cons name rest ih => simp [bindings, ih]

theorem mem_bindings_labels {labels : Labels} {index : Int} {name : String} {base p : Nat} :
    (name, p) ∈ bindings base ((labelsAt labels index).map Row.label) ↔
      (name, index) ∈ labels ∧ p = base := by
  simp [bindings_labels, mem_labelsAt, eq_comm]

theorem mem_bindings_tokenRows {labels : Labels} {index : Nat} {current : Option Statement}
    {ts : List Token} (hclear : Clear labels index current.isSome ts) {name : String} {base p : Nat} :
    (name, p) ∈ bindings base (tokenRows labels index current ts) ↔
      ∃ i < ts.length, (name, ((index + i : Nat) : Int)) ∈ labels ∧
        p = base + (currentTokens current ++ normaliseFrom current.isSome (ts.take i)).length := by
  induction ts generalizing index current base with
  | nil => cases current <;> simp [tokenRows, bindings]
  | cons t rest ih =>
    rw [clear_cons_iff] at hclear
    obtain ⟨hfirst, hrest⟩ := hclear
    rw [List.length_cons, Nat.exists_lt_succ_left]
    have hshift : ∀ i, index + 1 + i = index + (i + 1) := fun i => by omega
    cases current with
    | none =>
      have hstray := fun hclear => @ih (index + 1) none hclear base
      have hopened := fun mnemonic hclear => @ih (index + 1) (some ⟨mnemonic, []⟩) hclear base
      cases t with
      | instruction mnemonic =>
        simp [tokenRows, bindings_append, mem_bindings_labels, flatMap_tokens_labels, currentTokens,
          normaliseFrom, hopened mnemonic hrest, hshift, Statement.openTokens]
      | statementEnd | value v | register other =>
        simp [tokenRows, bindings_append, mem_bindings_labels, flatMap_tokens_labels, currentTokens,
          normaliseFrom, bindings, hstray hrest, hshift]
    | some s =>
      have hinside : (name, (index : Int)) ∉ labels := by
        rw [← mem_labelsAt, hfirst rfl]
        exact List.not_mem_nil
      rw [or_iff_right (fun h => hinside h.1)]
      cases t with
      | instruction mnemonic =>
        have hnext := @ih (index + 1) (some ⟨mnemonic, []⟩) hrest (base + s.tokens.length)
        rw [tokenRows, bindings, hnext]
        refine exists_congr fun i => and_congr_right fun _ => and_congr (by rw [hshift]) ?_
        simp [currentTokens, normaliseFrom]
        omega
      | statementEnd =>
        have hnext := @ih (index + 1) none hrest (base + s.tokens.length)
        rw [tokenRows, bindings, hnext]
        refine exists_congr fun i => and_congr_right fun _ => and_congr (by rw [hshift]) ?_
        simp [currentTokens, normaliseFrom]
        omega
      | value v =>
        rw [tokenRows, @ih (index + 1) (some (s.extend (.value v))) hrest base]
        refine exists_congr fun i => and_congr_right fun _ => and_congr (by rw [hshift]) ?_
        simp [currentTokens, normaliseFrom]
      | register other =>
        rw [tokenRows, @ih (index + 1) (some (s.extend (.register other))) hrest base]
        refine exists_congr fun i => and_congr_right fun _ => and_congr (by rw [hshift]) ?_
        simp [currentTokens, normaliseFrom]

theorem mem_bindings_rows {labels : Labels} {ts : List Token} (hclear : Clear labels 0 false ts)
    {name : String} {p : Nat} :
    (name, p) ∈ bindings 0 (rows ts labels) ↔
      ∃ index, (name, index) ∈ labels ∧ p = position ts index := by
  have htokens := @mem_bindings_tokenRows labels 0 none ts hclear name 0 p
  have hsize : ((tokenRows labels 0 none ts).flatMap Row.tokens).length = (normalise ts).length := by
    rw [flatMap_tokens_tokenRows]
    rfl
  rw [rows, bindings_append, List.mem_append, htokens, bindings_labels, hsize]
  constructor
  · rintro (⟨i, hi, hmem, rfl⟩ | hleft)
    · refine ⟨(i : Int), by simpa using hmem, ?_⟩
      rw [position, if_pos (by omega)]
      simp [currentTokens, normalise]
    · obtain ⟨other, hother, heq⟩ := List.mem_map.mp hleft
      cases heq
      obtain ⟨index, hmem, hindex⟩ := mem_leftoverNames.mp hother
      refine ⟨index, hmem, ?_⟩
      rw [position, if_neg (by omega), Nat.zero_add]
  · rintro ⟨index, hmem, rfl⟩
    by_cases hindex : 0 ≤ index ∧ index < ts.length
    · left
      refine ⟨index.toNat, by omega, ?_, ?_⟩
      · rwa [Nat.zero_add, Int.toNat_of_nonneg hindex.1]
      · rw [position, if_pos hindex]
        simp [currentTokens, normalise]
    · right
      refine List.mem_map.mpr ⟨name, mem_leftoverNames.mpr ⟨index, hmem, by omega⟩, ?_⟩
      rw [position, if_neg hindex, Nat.zero_add]

theorem get?_bindings_rows {labels : Labels} {ts : List Token} (hclear : Clear labels 0 false ts)
    (hnames : (Table.names labels).Nodup) (name : String) :
    (Table.putAll [] (bindings 0 (rows ts labels))).get? name =
      (Table.get? labels name).map (position ts) := by
  have hunique : ∀ n a b, (n, a) ∈ bindings 0 (rows ts labels) →
      (n, b) ∈ bindings 0 (rows ts labels) → a = b := by
    intro n a b ha hb
    obtain ⟨i, hi, rfl⟩ := (mem_bindings_rows hclear).mp ha
    obtain ⟨j, hj, rfl⟩ := (mem_bindings_rows hclear).mp hb
    rw [Table.eq_of_nodup_names hnames hi hj]
  ext p
  rw [Table.get?_putAll_eq_some_iff hunique, mem_bindings_rows hclear, Option.map_eq_some_iff]
  refine exists_congr fun index => and_congr ?_ eq_comm
  exact (Table.get?_eq_some_iff fun n a b => Table.eq_of_nodup_names hnames).symm

end LineAssembly.Listing
