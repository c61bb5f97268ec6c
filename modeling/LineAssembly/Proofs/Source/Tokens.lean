import LineAssembly.Proofs.Listing.Rescan

/-! # What a reading gives

Every token of a reading can be written as a word again, every label it binds is a name, and it binds the
label where no statement is open.
-/

set_option autoImplicit false

namespace LineAssembly

open Text Listing

theorem isBlank_head?_trim (text : List Char) : ∀ c ∈ (trim text).head?, isBlank c = false := by
  intro c hc
  have hprefix : trim text <+: text.dropWhile isBlank := List.rdropWhile_prefix isBlank _
  obtain ⟨rest, hrest⟩ := hprefix
  have hdrop : (text.dropWhile isBlank).head? = some c := by
    rw [← hrest, List.head?_append, hc]
    rfl
  have hnot := List.head?_dropWhile_not isBlank text
  rw [hdrop] at hnot
  simpa using hnot

theorem words_cons {c : Char} {rest : List Char} (h : c ≠ ' ') :
    ∃ piece pieces, words (c :: rest) = (c :: piece) :: pieces := by
  rw [words, splitAt, if_neg h]
  split
  · rename_i hnil
    exact absurd hnil (splitAt_ne_nil ' ' rest)
  · rename_i piece pieces _
    exact ⟨piece, pieces, rfl⟩

namespace Argument

theorem nonneg_of_ofDigits {word : List Char} {n : Int32} (hne : word ≠ [])
    (hdigits : ∀ c ∈ word, isDigit c = true) (h : ofDigits word = .literal n) : 0 ≤ n.toInt := by
  rw [ofDigits, Literal.parse_of_digits hne hdigits] at h
  split_ifs at h with hlimit hgreat
  cases h
  rw [Value.greatestInt] at hgreat
  rw [Int32.toInt_ofInt_of_le (by omega) (by omega)]
  omega

theorem writable_ofDigits {word : List Char} (hne : word ≠ [])
    (hdigits : ∀ c ∈ word, isDigit c = true) : (ofDigits word).token.Writable := by
  cases hargument : ofDigits word with
  | literal n => exact nonneg_of_ofDigits hne hdigits hargument
  | label name | register name =>
    rw [ofDigits] at hargument
    split at hargument <;> cases hargument
  | absent | outOfRange | unreadable | quoted | malformed => exact trivial

theorem writable_ofCompact (word : List Char) : (ofCompact word).token.Writable := by
  rw [ofCompact]
  split_ifs with hempty hdigits halnum hregister hquoted
  · exact trivial
  · exact writable_ofDigits (by simpa using hempty) (by simpa using hdigits)
  · have hne : word ≠ [] := by simpa using hempty
    have hname : isName word = true := isName_iff.mpr ⟨hne, by simpa using halnum⟩
    simpa [token, Token.Writable, hname] using hdigits
  · intro c hc
    rw [String.toList_ofList] at hc
    exact (List.mem_filter.mp hc).2
  · exact trivial
  · exact trivial

end Argument

/-- The mnemonic of a line is never empty: the line starts with a character that is no blank. -/
theorem Line.writable_ofText {text : List Char} {mnemonic : String} {arguments : List Argument}
    (h : Line.ofText text = .statement mnemonic arguments) :
    (Token.instruction mnemonic).Writable ∧ ∀ a ∈ arguments, a.token.Writable := by
  rw [ofText] at h
  split_ifs at h with hempty
  cases hcontent : content text with
  | nil => simp [hcontent] at hempty
  | cons c rest =>
    have hblank : isBlank c = false :=
      isBlank_head?_trim (beforeComment text) c (by rw [← content, hcontent]; rfl)
    have hspace : c ≠ ' ' := by
      rintro rfl
      exact absurd hblank (by decide)
    obtain ⟨piece, pieces, hwords⟩ := @words_cons c rest hspace
    rw [hcontent, hwords, ofWords] at h
    split_ifs at h with hcolon
    cases h
    refine ⟨⟨?_, ?_⟩, ?_⟩
    · simp [withoutBlanks, hblank]
    · intro d hd
      rw [String.toList_ofList] at hd
      exact (mem_withoutBlanks.mp hd).2
    · intro a ha
      obtain ⟨w, -, rfl⟩ := List.mem_map.mp ha
      exact Argument.writable_ofCompact _

def Line.tokens : Line → List Token
  | .statement mnemonic arguments =>
    .instruction mnemonic :: (arguments.map Argument.token ++ [.statementEnd])
  | _ => []

theorem Line.stillOpen_tokens (l : Line) : stillOpen false l.tokens = false := by
  cases l with
  | blank | label name shared => rfl
  | statement mnemonic arguments =>
    rw [tokens, ← List.cons_append, stillOpen_append]
    rfl

namespace Reading

variable {known : String → Bool}

theorem mem_tokens_andThen {a b : Reading} {t : Token} (h : t ∈ (a.andThen b).tokens) :
    t ∈ a.tokens ∨ t ∈ b.tokens := by
  cases hfault : a.fault? with
  | some fault =>
    rw [andThen_of_fault? hfault] at h
    exact .inl h
  | none =>
    rw [andThen_of_none hfault] at h
    exact List.mem_append.mp h

theorem writable_ofArguments {line : Nat} {arguments : List Argument}
    (h : ∀ a ∈ arguments, a.token.Writable) :
    ∀ t ∈ (ofArguments line arguments).tokens, t.Writable := by
  induction arguments with
  | nil =>
    intro t ht
    rw [List.mem_singleton.mp ht]
    exact trivial
  | cons a rest ih =>
    intro t ht
    rcases mem_tokens_andThen ht with ht | ht
    · rw [ofArgument] at ht
      split at ht
      · cases ht
      · rw [List.mem_singleton.mp ht]
        exact h a List.mem_cons_self
    · exact ih (fun x hx => h x (List.mem_cons_of_mem _ hx)) t ht

theorem tokens_ofLabel (line index : Nat) (name : String) (shared : Bool) :
    (ofLabel line index name shared).tokens = [] := by
  rw [ofLabel]
  split_ifs <;> rfl

theorem writable_ofLine (line index : Nat) (text : List Char) :
    ∀ t ∈ (ofLine known line index (Line.ofText text)).tokens, t.Writable := by
  cases hline : Line.ofText text with
  | blank => simp [ofLine]
  | label name shared => simp [ofLine, tokens_ofLabel]
  | statement mnemonic arguments =>
    obtain ⟨hmnemonic, harguments⟩ := Line.writable_ofText hline
    intro t ht
    rcases mem_tokens_andThen ht with ht | ht
    · rw [List.mem_singleton.mp ht]
      exact hmnemonic
    · exact writable_ofArguments harguments t ht

theorem writable_ofLines (line index : Nat) (ls : List (List Char)) :
    ∀ t ∈ (ofLines known line index ls).tokens, t.Writable := by
  induction ls generalizing line index with
  | nil => simp [ofLines]
  | cons text rest ih =>
    intro t ht
    rcases mem_tokens_andThen ht with ht | ht
    · exact writable_ofLine line index text t ht
    · exact ih _ _ t ht

theorem bindings_ofArguments (line : Nat) (arguments : List Argument) :
    (ofArguments line arguments).bindings = [] := by
  induction arguments with
  | nil => rfl
  | cons a rest ih =>
    cases ha : a.fault? line <;> simp [ofArguments, ofArgument, andThen, ha, ih]

theorem bindings_ofLine {line index : Nat} {l : Line} {b : String × Nat}
    (h : b ∈ (ofLine known line index l).bindings) : IsLabelName b.1 ∧ b.2 = index := by
  cases l with
  | blank => cases h
  | statement mnemonic arguments =>
    rw [ofLine, andThen_of_none rfl, bindings_ofArguments] at h
    cases h
  | label name shared =>
    rw [ofLine, ofLabel] at h
    split_ifs at h with hempty hname
    · cases h
    · cases h
    all_goals
      rw [List.mem_singleton.mp h]
      exact ⟨by simpa [IsLabelName] using hname, rfl⟩

theorem tokens_ofLine {line index : Nat} {l : Line}
    (h : (ofLine known line index l).fault? = none) :
    (ofLine known line index l).tokens = l.tokens := by
  cases l with
  | blank => rfl
  | label name shared => exact tokens_ofLabel line index name shared
  | statement mnemonic arguments =>
    obtain ⟨-, harguments⟩ := fault?_andThen h
    rw [ofLine, andThen_of_none rfl, (ofArguments_of_no_fault (fault?_of_mem_arguments harguments)).1]
    rfl

/-- Every label is bound, under a name, to an index at which no statement is open. -/
theorem bindings_ofLines {line index : Nat} {ls : List (List Char)}
    (hfault : (ofLines known line index ls).fault? = none) :
    ∀ b ∈ (ofLines known line index ls).bindings, IsLabelName b.1 ∧
      ∃ k, b.2 = index + k ∧ AtBoundary (ofLines known line index ls).tokens k := by
  induction ls generalizing line index with
  | nil => simp [ofLines]
  | cons text rest ih =>
    obtain ⟨hfirst, hrest⟩ := fault?_andThen hfault
    rw [ofLines, andThen_of_none hfirst]
    have hclosed : stillOpen false (ofLine known line index (Line.ofText text)).tokens = false := by
      rw [tokens_ofLine hfirst, Line.stillOpen_tokens]
    intro b hb
    rcases List.mem_append.mp hb with hb | hb
    · obtain ⟨hname, hindex⟩ := bindings_ofLine hb
      exact ⟨hname, 0, hindex, Nat.zero_le _, rfl⟩
    · obtain ⟨hname, k, hk, hboundary⟩ := ih hrest b hb
      exact ⟨hname, _, by rw [hk, Nat.add_assoc], hboundary.append hclosed⟩

end Reading

/-- What a scan that returns leaves: tokens that can be written, and a table of names for boundaries. -/
theorem Machine.scan_spec {m : Machine} {source : String} {ts : List Token}
    (h : (m.scan source).2 = .ok ts) :
    (∀ t ∈ ts, t.Writable) ∧ (m.scan source).1.labels.names.Nodup ∧
      ∀ b ∈ (m.scan source).1.labels, IsLabelName b.1 ∧ AtBoundary ts b.2 := by
  obtain ⟨hfault, rfl⟩ := Machine.scan_eq_ok_iff.mp h
  rw [Machine.labels_scan]
  refine ⟨Reading.writable_ofLines 1 0 _, Table.nodup_names_putAll (t := []) List.nodup_nil _, ?_⟩
  intro b hb
  have hmem := (Table.mem_putAll hb).resolve_left List.not_mem_nil
  obtain ⟨hname, k, hk, hboundary⟩ := Reading.bindings_ofLines hfault b hmem
  rw [Nat.zero_add] at hk
  exact ⟨hname, by rw [hk]; exact hboundary⟩

end LineAssembly
