import LineAssembly.Proofs.Source.Tokens

/-! # Source to listing and back

A well-formed stream is its own normal form, and a label that stands between statements keeps its index.
So the listing of a scanned program is read as the program again, unless a mnemonic has become a comment
mark or a label by losing its blanks. Main statement: the round trip succeeds exactly when every mnemonic
is faithful.
-/

set_option autoImplicit false

namespace LineAssembly.Listing

open Text Reading
open Statement (stream)

def Row.statement? : Row → Option Statement
  | .statement s => some s
  | _ => none

theorem flatMap_tokens_eq_stream (rs : List Row) :
    rs.flatMap Row.tokens = stream (rs.filterMap Row.statement?) := by
  induction rs with
  | nil => rfl
  | cons r rest ih =>
    rw [List.flatMap_cons, ih]
    cases r <;> simp [Row.tokens, Row.statement?, List.filterMap_cons]

theorem tokenRows_operands (labels : Labels) (index : Nat) (s : Statement)
    (os : List Statement.Operand) (rest : List Token) :
    tokenRows labels index (some s) (os.map Statement.Operand.token ++ .statementEnd :: rest) =
      .statement ⟨s.mnemonic, s.operands ++ os⟩ ::
        tokenRows labels (index + os.length + 1) none rest := by
  induction os generalizing index s with
  | nil => simp [tokenRows]
  | cons o others ih =>
    have hnext := ih (index + 1) (s.extend o)
    simp only [Statement.extend, List.append_assoc, List.singleton_append] at hnext
    rw [Nat.add_right_comm index 1 others.length] at hnext
    cases o <;> exact hnext

theorem stream_cons_eq (s : Statement) (ss : List Statement) :
    stream (s :: ss) = .instruction s.mnemonic ::
      (s.operands.map Statement.Operand.token ++ .statementEnd :: stream ss) := by
  simp [Statement.tokens, Statement.openTokens]

theorem statements_tokenRows (labels : Labels) (index : Nat) (ss : List Statement) :
    (tokenRows labels index none (stream ss)).filterMap Row.statement? = ss := by
  induction ss generalizing index with
  | nil => rfl
  | cons s rest ih =>
    have hlabels : ((labelsAt labels index).map Row.label).filterMap Row.statement? = [] := by
      simp [Row.statement?]
    rw [stream_cons_eq, tokenRows, tokenRows_operands, List.filterMap_append, hlabels]
    simp [Row.statement?, ih]

theorem stream_injective : Function.Injective stream := by
  intro ss others h
  rw [← statements_tokenRows [] 0 ss, h, statements_tokenRows]

theorem normalise_stream (ss : List Statement) : normalise (stream ss) = stream ss := by
  have h := flatMap_tokens_tokenRows [] 0 none (stream ss)
  rw [flatMap_tokens_eq_stream, statements_tokenRows] at h
  exact h.symm

theorem statements_rows (ss : List Statement) (labels : Labels) :
    (rows (stream ss) labels).filterMap Row.statement? = ss := by
  rw [rows, List.filterMap_append, statements_tokenRows]
  simp [Row.statement?]

theorem stillOpen_operands (os : List Statement.Operand) (isOpen : Bool) :
    stillOpen isOpen (os.map Statement.Operand.token) = isOpen := by
  induction os with
  | nil => rfl
  | cons o rest ih => cases o <;> exact ih

theorem stillOpen_tokens (s : Statement) : stillOpen false s.tokens = false := by
  rw [Statement.tokens, stillOpen_append]
  rfl

/-- The tokens in front of a boundary are whole statements. -/
theorem take_stream_of_atBoundary {ss : List Statement} {index : Nat}
    (h : AtBoundary (stream ss) index) : ∃ k, (stream ss).take index = stream (ss.take k) := by
  induction ss generalizing index with
  | nil => exact ⟨0, by simp [stream]⟩
  | cons s rest ih =>
    rcases Nat.lt_or_ge index s.tokens.length with hlt | hge
    · cases index with
      | zero => exact ⟨0, rfl⟩
      | succ i =>
        -- Inside the first statement its mnemonic is already behind the index.
        have hopen : (stream (s :: rest)).take (i + 1) =
            .instruction s.mnemonic :: (s.operands.take i).map Statement.Operand.token := by
          rw [Statement.length_tokens] at hlt
          rw [stream_cons_eq, List.take_succ_cons, List.take_append_of_le_length (by simp; omega),
            List.map_take]
        have hstill := h.2
        rw [hopen, stillOpen, stillOpen_operands] at hstill
        cases hstill
    · obtain ⟨j, rfl⟩ := Nat.exists_eq_add_of_le hge
      have htake : (stream (s :: rest)).take (s.tokens.length + j) =
          s.tokens ++ (stream rest).take j := by
        rw [Statement.stream_cons, List.take_length_add_append]
      have hrest : AtBoundary (stream rest) j := by
        obtain ⟨hle, hstill⟩ := h
        rw [htake, stillOpen_append, stillOpen_tokens] at hstill
        rw [Statement.stream_cons, List.length_append] at hle
        exact ⟨by omega, hstill⟩
      obtain ⟨k, hk⟩ := ih hrest
      exact ⟨k + 1, by rw [htake, hk, List.take_succ_cons, Statement.stream_cons]⟩

theorem position_stream {ss : List Statement} {index : Nat} (h : AtBoundary (stream ss) index) :
    position (stream ss) index = index := by
  obtain ⟨k, hk⟩ := take_stream_of_atBoundary h
  have hle := h.1
  rw [position]
  split_ifs with hindex
  · rw [Int.toNat_natCast, hk, normalise_stream, ← hk, List.length_take_of_le hle]
  · rw [normalise_stream]
    omega

/-- What the line of a statement is read as: a comment mark in the mnemonic ends the line, and a colon at
the end of what is left makes it a label. -/
def reread (s : Statement) : Option Statement :=
  let kept := beforeComment s.mnemonic.toList
  if kept = [] ∨ kept.getLast? = some ':' then none
  else if HasMark s.mnemonic.toList then some ⟨String.ofList kept, []⟩
  else some s

theorem reread_eq_self_iff {s : Statement} (hne : s.mnemonic.toList ≠ []) :
    reread s = some s ↔ Faithful s.mnemonic := by
  by_cases hmark : HasMark s.mnemonic.toList
  · have hchanged : String.ofList (beforeComment s.mnemonic.toList) ≠ s.mnemonic := by
      intro he
      apply not_hasMark_beforeComment s.mnemonic.toList
      rwa [← String.toList_ofList (l := beforeComment s.mnemonic.toList), he]
    have hleft : reread s ≠ some s := by
      rw [reread]
      split_ifs
      · intro h
        cases h
      · intro h
        exact hchanged (congrArg Statement.mnemonic (Option.some.inj h))
    simp [hleft, Faithful, hmark]
  · simp [reread, Faithful, beforeComment_of_not_hasMark hmark, hmark, hne]

theorem exists_yields_label {text : List Char} {name : String} {shared : Bool}
    (h : Line.ofText text = .label name shared) (base : Nat) : ∃ bs, Yields [text] base [] bs := by
  refine ⟨(ofLabel 0 base name shared).bindings, yields_singleton ?_⟩
  intro known line
  rw [h, ofLine, tokens_ofLabel]
  refine ⟨rfl, ?_, ?_⟩ <;> simp only [ofLabel] <;> split_ifs <;> rfl

theorem ofWords_of_colon {first : List Char} (rest : List (List Char))
    (h : first.getLast? = some ':') :
    Line.ofWords (first :: rest) =
      .label (String.ofList (first.filter (· != ':'))) (!rest.isEmpty) := by
  rw [Line.ofWords, if_pos h]

section Statement

variable {s : Statement} (h : ∀ t ∈ s.openTokens, t.Writable) (base : Nat)

include h

theorem exists_yields_of_hasMark (hmark : HasMark s.mnemonic.toList) :
    ∃ bs, Yields [(Row.statement s).text.toList] base (stream (reread s).toList) bs := by
  have hfirst : s.mnemonic.toList ≠ [] ∧ ∀ c ∈ s.mnemonic.toList, isBlank c = false :=
    h (.instruction s.mnemonic) List.mem_cons_self
  have hblank : ∀ c ∈ beforeComment s.mnemonic.toList, isBlank c = false := fun c hc =>
    hfirst.2 c ((beforeComment_isPrefix _).subset hc)
  have hcontent : Line.content (Row.statement s).text.toList = beforeComment s.mnemonic.toList := by
    rw [Row.text, toList_statementLine, Line.content, intercalate_cons,
      beforeComment_append_of_hasMark hmark]
    exact trim_eq_self (fun c hc => hblank c (List.mem_of_mem_head? hc))
      (fun c hc => hblank c (List.mem_of_mem_getLast? hc))
  by_cases hempty : beforeComment s.mnemonic.toList = []
  · have hline : Line.ofText (Row.statement s).text.toList = .blank := by
      rw [Line.ofText, hcontent, hempty]
      rfl
    rw [reread, if_pos (.inl hempty)]
    exact ⟨[], yields_singleton fun _ _ => by rw [hline]; exact ⟨rfl, rfl, rfl⟩⟩
  · have hline := ofText_of_content_word hcontent hempty hblank
    by_cases hcolon : (beforeComment s.mnemonic.toList).getLast? = some ':'
    · rw [reread, if_pos (.inr hcolon)]
      exact exists_yields_label (hline.trans (ofWords_of_colon [] hcolon)) base
    · rw [Line.ofWords, if_neg hcolon, withoutBlanks_eq_self hblank] at hline
      rw [reread, if_neg (not_or.mpr ⟨hempty, hcolon⟩), if_pos hmark]
      exact ⟨[], yields_singleton fun _ _ => by rw [hline]; exact ⟨rfl, rfl, rfl⟩⟩

theorem exists_yields_statement :
    ∃ bs, Yields [(Row.statement s).text.toList] base (stream (reread s).toList) bs := by
  by_cases hmark : HasMark s.mnemonic.toList
  · exact exists_yields_of_hasMark h base hmark
  · have hne : s.mnemonic.toList ≠ [] := (h (.instruction s.mnemonic) List.mem_cons_self).1
    have hkept := beforeComment_of_not_hasMark hmark
    by_cases hcolon : s.mnemonic.toList.getLast? = some ':'
    · rw [reread, hkept, if_pos (.inr hcolon)]
      exact exists_yields_label ((ofText_statementLine h hmark).trans (ofWords_of_colon _ hcolon)) base
    · rw [reread, hkept, if_neg (not_or.mpr ⟨hne, hcolon⟩), if_neg hmark]
      refine ⟨[], ?_⟩
      have hyields := yields_statement h ⟨hmark, hcolon⟩ base
      simpa [stream] using hyields

end Statement

theorem exists_yields_rows {rs : List Row} (h : ∀ r ∈ rs, r.All IsLabelName Token.Writable)
    (base : Nat) :
    ∃ bs, Yields (rs.map fun r => r.text.toList) base
      (stream ((rs.filterMap Row.statement?).filterMap reread)) bs := by
  induction rs generalizing base with
  | nil => exact ⟨[], yields_nil base⟩
  | cons r rest ih =>
    have hr := h r List.mem_cons_self
    have hnext := ih (fun x hx => h x (List.mem_cons_of_mem _ hx))
    cases r with
    | label name =>
      obtain ⟨bs, hbs⟩ := hnext base
      exact ⟨_, (yields_label hr base).append hbs⟩
    | stray t =>
      obtain ⟨bs, hbs⟩ := hnext base
      exact ⟨_, (yields_stray t base).append hbs⟩
    | statement s =>
      obtain ⟨bs, hbs⟩ := exists_yields_statement hr base
      obtain ⟨others, hothers⟩ := hnext (base + (stream (reread s).toList).length)
      refine ⟨bs ++ others, ?_⟩
      have hstream : stream (((Row.statement s :: rest).filterMap Row.statement?).filterMap reread) =
          stream (reread s).toList ++ stream ((rest.filterMap Row.statement?).filterMap reread) := by
        rw [← Statement.stream_append]
        cases hs : reread s <;> simp [Row.statement?, hs]
      rw [hstream]
      exact hbs.append hothers

theorem names_ofTable (t : Table Nat) : Table.names (ofTable t) = t.names := by
  simp [Table.names, ofTable]

theorem isLabelName_ofTable {t : Table Nat} (h : ∀ b ∈ t, IsLabelName b.1) :
    ∀ l ∈ ofTable t, IsLabelName l.1 := by
  intro l hl
  obtain ⟨b, hb, rfl⟩ := List.mem_map.mp hl
  exact h b hb

theorem get?_ofTable (t : Table Nat) (name : String) :
    Table.get? (ofTable t) name = (t.get? name).map Int.ofNat := by
  induction t with
  | nil => rfl
  | cons head rest ih =>
    change Table.get? ((head.1, (head.2 : Int)) :: ofTable rest) name = _
    rw [Table.get?, Table.get?, ih]
    split <;> rfl

theorem clear_of_atBoundary {t : Table Nat} {ts : List Token}
    (h : ∀ b ∈ t, AtBoundary ts b.2) : Clear (ofTable t) 0 false ts := by
  intro i _ hopen
  rw [List.eq_nil_iff_forall_not_mem]
  intro name hname
  obtain ⟨b, hb, heq⟩ := List.mem_map.mp (mem_labelsAt.mp hname)
  have hindex : b.2 = i := by
    have hcast := congrArg Prod.snd heq
    simp only at hcast
    omega
  rw [← hindex, (h b hb).2] at hopen
  cases hopen

theorem rescan_faithful {ss : List Statement} {t : Table Nat}
    (htokens : ∀ u ∈ stream ss, u.Printable) (hnames : t.names.Nodup)
    (hlabels : ∀ b ∈ t, IsLabelName b.1 ∧ AtBoundary (stream ss) b.2) (m : Machine) :
    (m.scan (join ((rows (stream ss) (ofTable t)).map Row.text))).2 = .ok (stream ss) ∧
      ∀ name, (m.scan (join ((rows (stream ss) (ofTable t)).map Row.text))).1.labels.get? name =
        t.get? name := by
  have hnamed := isLabelName_ofTable fun b hb => (hlabels b hb).1
  have hclear := clear_of_atBoundary fun b hb => (hlabels b hb).2
  obtain ⟨hscan, hbound⟩ := scan_join htokens hnamed (by rwa [names_ofTable]) hclear m
  constructor
  · rwa [normalise_stream] at hscan
  · intro name
    rw [hbound, get?_ofTable]
    cases hget : t.get? name with
    | none => rfl
    | some index =>
      have hboundary := (hlabels _ (Table.mem_of_get? hget)).2
      exact congrArg some (position_stream hboundary)

theorem eq_some_of_filterMap_eq_self {α : Type} {f : α → Option α} {l : List α}
    (h : l.filterMap f = l) : ∀ a ∈ l, f a = some a := by
  induction l with
  | nil => simp
  | cons a rest ih =>
    cases hf : f a with
    | none =>
      rw [List.filterMap_cons_none hf] at h
      have hlength := List.length_filterMap_le f rest
      rw [h, List.length_cons] at hlength
      omega
    | some b =>
      rw [List.filterMap_cons_some hf] at h
      obtain ⟨rfl, hrest⟩ := List.cons.inj h
      intro x hx
      rcases List.mem_cons.mp hx with rfl | hx
      · exact hf
      · exact ih hrest x hx

theorem faithful_of_rescan {ss : List Statement} {t : Table Nat} (htokens : ∀ u ∈ stream ss, u.Writable)
    (hlabels : ∀ b ∈ t, IsLabelName b.1) {m : Machine}
    (h : (m.scan (join ((rows (stream ss) (ofTable t)).map Row.text))).2 = .ok (stream ss)) :
    ∀ s ∈ ss, Faithful s.mnemonic := by
  have hrows := all_of_mem_rows (isLabelName_ofTable hlabels) htokens
  obtain ⟨bs, hbs⟩ := exists_yields_rows hrows 0
  have hread := (Machine.scan_of_yields (yields_join hrows hbs) m).1
  rw [statements_rows, h] at hread
  -- Statements only get lost on the way, so all of them are found again only if each is.
  have hkept : ss.filterMap reread = ss := (stream_injective (Except.ok.inj hread)).symm
  intro s hs
  have hne : s.mnemonic.toList ≠ [] :=
    (htokens (.instruction s.mnemonic) (List.mem_flatMap.mpr ⟨s, hs, List.mem_cons_self⟩)).1
  rw [← reread_eq_self_iff hne]
  exact eq_some_of_filterMap_eq_self hkept s hs

/-- A scanned program of whole statements is always listed, and its listing is scanned as the same
program with the same labels exactly when every mnemonic is faithful. -/
theorem rescan_iff {m : Machine} {source : String} {ss : List Statement}
    (h : (m.scan source).2 = .ok (stream ss)) (other : Machine) :
    ∃ written, text (stream ss) (ofTable (m.scan source).1.labels) = .ok written ∧
      (((other.scan written).2 = .ok (stream ss) ∧ ∀ name,
          (other.scan written).1.labels.get? name = (m.scan source).1.labels.get? name) ↔
        ∀ s ∈ ss, Faithful s.mnemonic) := by
  obtain ⟨hwritable, hnames, hlabels⟩ := Machine.scan_spec h
  have hclear := clear_of_atBoundary fun b hb => (hlabels b hb).2
  refine ⟨_, (text_eq_ok_iff _ _ _).mpr ⟨hclear, rfl⟩, ?_, ?_⟩
  · rintro ⟨hscan, -⟩
    exact faithful_of_rescan hwritable (fun b hb => (hlabels b hb).1) hscan
  · intro hfaithful
    have hprintable : ∀ u ∈ stream ss, u.Printable := by
      intro u hu
      have hu' := hwritable u hu
      cases u with
      | instruction name =>
        obtain ⟨s, hs, hmem⟩ := List.mem_flatMap.mp hu
        rw [Statement.eq_mnemonic_of_mem_tokens hmem] at hu' ⊢
        exact ⟨hu', hfaithful s hs⟩
      | value v | register name | statementEnd => exact hu'
    exact rescan_faithful hprintable hnames hlabels other

theorem rescan_iff_loop :
    (({} : Machine).scan "top:\nSE\tT [a] \t5 ;; five\nJMP top").2 =
      .ok (stream [⟨"SET", [.register "a", .value (.int 5)]⟩, ⟨"JMP", [.value (.label "top")]⟩]) ∧
    ∃ written, text
        (stream [⟨"SET", [.register "a", .value (.int 5)]⟩, ⟨"JMP", [.value (.label "top")]⟩])
        (ofTable (({} : Machine).scan "top:\nSE\tT [a] \t5 ;; five\nJMP top").1.labels) = .ok written ∧
      (({} : Machine).scan written).2 =
        .ok (stream [⟨"SET", [.register "a", .value (.int 5)]⟩, ⟨"JMP", [.value (.label "top")]⟩]) := by
  have hscan : (({} : Machine).scan "top:\nSE\tT [a] \t5 ;; five\nJMP top").2 =
      .ok (stream [⟨"SET", [.register "a", .value (.int 5)]⟩, ⟨"JMP", [.value (.label "top")]⟩]) := by
    decide +kernel
  obtain ⟨written, hwritten, hiff⟩ := rescan_iff hscan {}
  exact ⟨hscan, written, hwritten, (hiff.mpr (by decide)).1⟩

/-- A mnemonic with a tab between two semicolons is scanned without the tab. -/
theorem rescan_hidden_mark :
    (({} : Machine).scan "A;\t;B").2 = .ok (stream [⟨"A;;B", []⟩]) ∧
    text (stream [⟨"A;;B", []⟩]) (ofTable (({} : Machine).scan "A;\t;B").1.labels) = .ok "A;;B\n" ∧
    (({} : Machine).scan "A;;B\n").2 = .ok (stream [⟨"A", []⟩]) ∧
    stream [⟨"A", []⟩] ≠ stream [⟨"A;;B", []⟩] := by
  refine ⟨by decide +kernel, by decide +kernel, by decide +kernel, by decide⟩

end LineAssembly.Listing
