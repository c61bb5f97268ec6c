import LineAssembly.Proofs.Source.Tokens

/-! # The tokens of a source, line by line

A reading without a fault gives the tokens of its lines, one line after the other. A statement line
begins with the only mnemonic on it and closes what it opens, whatever its arguments are. So a mnemonic
never stands inside an open statement, and no statement is open where a line begins.
-/

set_option autoImplicit false

namespace LineAssembly

open Listing (stillOpen stillOpen_append stillOpen_cons)

theorem Argument.token_ne_instruction (a : Argument) (name : String) :
    a.token ≠ .instruction name := by
  cases a <;> nofun

namespace Reading

variable {known : String → Bool} {line index : Nat}

theorem tokens_ofLines {ls : List (List Char)} (h : (ofLines known line index ls).fault? = none) :
    (ofLines known line index ls).tokens = ls.flatMap fun text => (Line.ofText text).tokens := by
  induction ls generalizing line index with
  | nil => rfl
  | cons text rest ih =>
    obtain ⟨hfirst, hrest⟩ := fault?_andThen h
    rw [ofLines, andThen_of_none hfirst, List.flatMap_cons]
    exact congrArg₂ _ (tokens_ofLine hfirst) (ih hrest)

theorem known_of_mem_ofLine {l : Line} (hfault : (ofLine known line index l).fault? = none)
    (herrors : (ofLine known line index l).errors = []) {name : String}
    (h : .instruction name ∈ (ofLine known line index l).tokens) : known name = true := by
  rw [tokens_ofLine hfault] at h
  cases l with
  | blank | label name shared => cases h
  | statement mnemonic arguments =>
    rw [ofLine, errors_andThen rfl, List.append_eq_nil_iff] at herrors
    rcases List.mem_cons.mp h with h | h
    · rw [Token.instruction.inj h]
      simpa [errors, ofMnemonic, Note.error?] using herrors.1
    · rcases List.mem_append.mp h with h | h
      · obtain ⟨a, -, ha⟩ := List.mem_map.mp h
        exact absurd ha (a.token_ne_instruction name)
      · cases List.mem_singleton.mp h

/-- A mnemonic that is not known is reported, so a reading without errors knows all of its own. -/
theorem known_of_mem_ofLines {ls : List (List Char)}
    (hfault : (ofLines known line index ls).fault? = none)
    (herrors : (ofLines known line index ls).errors = []) {name : String}
    (h : .instruction name ∈ (ofLines known line index ls).tokens) : known name = true := by
  induction ls generalizing line index with
  | nil => cases h
  | cons text rest ih =>
    obtain ⟨hfirst, hrest⟩ := fault?_andThen hfault
    rw [ofLines, errors_andThen hfirst, List.append_eq_nil_iff] at herrors
    rw [ofLines, andThen_of_none hfirst] at h
    rcases List.mem_append.mp h with h | h
    · exact known_of_mem_ofLine hfirst herrors.1 h
    · exact ih hrest herrors.2 h

end Reading

/-- A mnemonic only stands where no statement is open. -/
def Uninterrupted (ts : List Token) : Prop :=
  ∀ i name, ts[i]? = some (.instruction name) → stillOpen false (ts.take i) = false

namespace Line

theorem uninterrupted_tokens (l : Line) : Uninterrupted l.tokens := by
  intro i name h
  cases l with
  | blank | label name shared => cases h
  | statement mnemonic arguments =>
    cases i with
    | zero => rfl
    | succ i =>
      -- Behind the mnemonic there are only arguments and the end.
      have hmem := List.mem_of_getElem? (List.getElem?_cons_succ.symm.trans h)
      rcases List.mem_append.mp hmem with hmem | hmem
      · obtain ⟨a, -, ha⟩ := List.mem_map.mp hmem
        exact absurd ha (a.token_ne_instruction name)
      · cases List.mem_singleton.mp hmem

variable (ls : List (List Char))

theorem stillOpen_flatMap : stillOpen false (ls.flatMap fun text => (ofText text).tokens) = false := by
  induction ls with
  | nil => rfl
  | cons text rest ih => rw [List.flatMap_cons, stillOpen_append, stillOpen_tokens, ih]

theorem uninterrupted_flatMap : Uninterrupted (ls.flatMap fun text => (ofText text).tokens) := by
  induction ls with
  | nil => exact fun i name h => by cases h
  | cons text rest ih =>
    intro i name h
    rw [List.flatMap_cons] at h ⊢
    rcases Nat.lt_or_ge i (ofText text).tokens.length with hlt | hge
    · rw [List.getElem?_append_left hlt] at h
      rw [List.take_append_of_le_length (by omega)]
      exact uninterrupted_tokens _ i name h
    · rw [List.getElem?_append_right hge] at h
      rw [List.take_append, List.take_of_length_le hge, stillOpen_append, stillOpen_tokens]
      exact ih _ name h

theorem head?_flatMap {t : Token} (h : (ls.flatMap fun text => (ofText text).tokens).head? = some t) :
    ∃ mnemonic, t = .instruction mnemonic := by
  induction ls with
  | nil => cases h
  | cons text rest ih =>
    rw [List.flatMap_cons] at h
    cases hline : ofText text with
    | blank | label name shared =>
      rw [hline] at h
      exact ih h
    | statement mnemonic arguments =>
      rw [hline] at h
      cases h
      exact ⟨mnemonic, rfl⟩

theorem getLast?_flatMap {t : Token}
    (h : (ls.flatMap fun text => (ofText text).tokens).getLast? = some t) : t = .statementEnd := by
  induction ls with
  | nil => cases h
  | cons text rest ih =>
    rw [List.flatMap_cons, List.getLast?_append] at h
    cases hrest : (rest.flatMap fun text => (ofText text).tokens).getLast? with
    | some u =>
      rw [hrest] at h
      cases h
      exact ih hrest
    | none =>
      rw [hrest, Option.none_or] at h
      cases hline : ofText text with
      | blank | label name shared =>
        rw [hline] at h
        cases h
      | statement mnemonic arguments =>
        rw [hline, tokens, ← List.cons_append, List.getLast?_concat] at h
        exact (Option.some.inj h).symm

end Line

namespace Machine

variable {m : Machine} {source : String} {ts : List Token}

theorem tokens_scan (h : (m.scan source).2 = .ok ts) :
    ts = (Text.lines source.toList).flatMap fun text => (Line.ofText text).tokens := by
  obtain ⟨hfault, rfl⟩ := scan_eq_ok_iff.mp h
  exact Reading.tokens_ofLines hfault

theorem stillOpen_scan (h : (m.scan source).2 = .ok ts) : stillOpen false ts = false := by
  rw [tokens_scan h]
  exact Line.stillOpen_flatMap _

theorem uninterrupted_scan (h : (m.scan source).2 = .ok ts) : Uninterrupted ts := by
  rw [tokens_scan h]
  exact Line.uninterrupted_flatMap _

theorem has_of_mem_scan (h : (m.scan source).2 = .ok ts)
    (herrors : (Reading.ofSource m.instructions.has source).errors = []) {name : String}
    (hmem : .instruction name ∈ ts) : m.instructions.has name = true := by
  obtain ⟨hfault, rfl⟩ := scan_eq_ok_iff.mp h
  exact Reading.known_of_mem_ofLines hfault herrors hmem

end Machine

end LineAssembly
