import LineAssembly.Proofs.Listing.Normal
import LineAssembly.Proofs.Machine.Scan
import LineAssembly.Proofs.Numeral
import LineAssembly.Proofs.Source.Reading
import LineAssembly.Proofs.Text.Pieces

/-! # Reading a listing

Each row of a listing is read on its own: a label is bound, a statement gives its tokens back, and a
comment gives nothing. Main statement: the listing of a printable stream is read as the normal form of the
stream, with its labels where the normal form has them.
-/

set_option autoImplicit false

namespace LineAssembly

open Text Reading

/-- What a token must hold so that its text is one word of a line, and an operand's is read as the
operand. -/
def Token.Writable : Token → Prop
  | .instruction name => name.toList ≠ [] ∧ ∀ c ∈ name.toList, isBlank c = false
  | .register name => ∀ c ∈ name.toList, isAlphanumeric c = true
  | .value (.int n) => 0 ≤ n.toInt
  | .value (.label name) => isName name.toList = true ∧ ∃ c ∈ name.toList, isDigit c = false
  | .value _ => False
  | .statementEnd => True

/-- A mnemonic that a line may start with: it holds no comment mark and does not look like a label. -/
def Faithful (mnemonic : String) : Prop :=
  ¬ HasMark mnemonic.toList ∧ mnemonic.toList.getLast? ≠ some ':'

instance (mnemonic : String) : Decidable (Faithful mnemonic) :=
  inferInstanceAs (Decidable (_ ∧ _))

def Token.Printable : Token → Prop
  | .instruction name => (Token.instruction name).Writable ∧ Faithful name
  | t => t.Writable

def IsLabelName (name : String) : Prop :=
  isName name.toList = true

instance : DecidablePred Token.Writable := fun t =>
  match t with
  -- Only the characters of the name are looked at, not all characters there are.
  | .instruction name =>
    @instDecidableAnd _ _ inferInstance (List.decidableBAll (isBlank · = false) name.toList)
  | .register name => List.decidableBAll (isAlphanumeric · = true) name.toList
  | .value (.int n) => inferInstanceAs (Decidable (0 ≤ n.toInt))
  | .value (.label name) =>
    @instDecidableAnd _ _ inferInstance (List.decidableBEx (isDigit · = false) name.toList)
  | .value (.register _) | .value .empty => inferInstanceAs (Decidable False)
  | .statementEnd => inferInstanceAs (Decidable True)

instance : DecidablePred Token.Printable := fun t =>
  match t with
  | .instruction _ => inferInstanceAs (Decidable (_ ∧ _))
  | .register name => inferInstanceAs (Decidable (Token.register name).Writable)
  | .value v => inferInstanceAs (Decidable (Token.value v).Writable)
  | .statementEnd => inferInstanceAs (Decidable Token.statementEnd.Writable)

instance : DecidablePred IsLabelName := fun name =>
  inferInstanceAs (Decidable (isName name.toList = true))

theorem Token.Printable.writable {t : Token} (h : t.Printable) : t.Writable := by
  cases t with
  | instruction name => exact h.1
  | register name | value v | statementEnd => exact h

namespace Listing

theorem toList_text_int {n : Int32} (h : 0 ≤ n.toInt) :
    (Value.int n).text.toList = Nat.toDigits 10 n.toInt.toNat := by
  obtain ⟨k, hk⟩ := Int.eq_ofNat_of_zero_le h
  rw [Value.text, hk]
  exact Nat.toList_repr

theorem toList_text_register (name : String) :
    (Value.register name).text.toList = '[' :: (name.toList ++ [']']) := by
  change ("[" ++ name ++ "]").toList = _
  simp

theorem operandText_chars {o : Statement.Operand} (h : o.token.Writable) :
    ∀ c ∈ (operandText o.token).toList, isAlphanumeric c = true ∨ c = '[' ∨ c = ']' := by
  intro c hc
  cases o with
  | register name =>
    change c ∈ (Value.register name).text.toList at hc
    rw [toList_text_register] at hc
    simp only [List.mem_cons, List.mem_append, List.not_mem_nil, or_false] at hc
    rcases hc with hc | hc | hc
    · exact .inr (.inl hc)
    · exact .inl (h c hc)
    · exact .inr (.inr hc)
  | value v =>
    change c ∈ v.text.toList at hc
    cases v with
    | int n =>
      rw [toList_text_int h] at hc
      exact .inl (isAlphanumeric_latin (Nat.isDigit_of_mem_toDigits (by decide) (by decide) hc))
    | label name => exact .inl ((isName_iff.mp h.1).2 c hc)
    | register name => exact h.elim
    | empty => exact h.elim

theorem operandText_ne_nil {o : Statement.Operand} (h : o.token.Writable) :
    (operandText o.token).toList ≠ [] := by
  cases o with
  | register name =>
    change (Value.register name).text.toList ≠ []
    rw [toList_text_register]
    exact List.cons_ne_nil _ _
  | value v =>
    cases v with
    | int n =>
      change (Value.int n).text.toList ≠ []
      rw [toList_text_int h]
      exact Nat.toDigits_ne_nil
    | label name => exact (isName_iff.mp h.1).1
    | register name => exact h.elim
    | empty => exact h.elim

theorem not_mem_operandText {o : Statement.Operand} (h : o.token.Writable) {c : Char}
    (halnum : isAlphanumeric c = false) (hopen : c ≠ '[') (hclose : c ≠ ']') :
    c ∉ (operandText o.token).toList := by
  intro hc
  rcases operandText_chars h c hc with hc | hc | hc
  · rw [hc] at halnum
    cases halnum
  · exact hopen hc
  · exact hclose hc

theorem isBlank_operandText {o : Statement.Operand} (h : o.token.Writable) :
    ∀ c ∈ (operandText o.token).toList, isBlank c = false := by
  intro c hc
  rcases operandText_chars h c hc with hc | rfl | rfl
  · exact isBlank_of_isAlphanumeric hc
  · decide
  · decide

theorem ofCompact_int {n : Int32} (h : 0 ≤ n.toInt) :
    Argument.ofCompact (Value.int n).text.toList = .literal n := by
  have hdigits : (Nat.toDigits 10 n.toInt.toNat).all isDigit = true :=
    List.all_eq_true.mpr fun c hc => isDigit_of_mem_toDigits hc
  have hempty : (Nat.toDigits 10 n.toInt.toNat).isEmpty = false := by simp
  rw [toList_text_int h, Argument.ofCompact, hempty, hdigits]
  rw [if_neg Bool.false_ne_true, if_pos rfl, Argument.ofDigits, Literal.parse_toDigits h]

theorem ofCompact_label {name : String} (h : (Token.value (.label name)).Writable) :
    Argument.ofCompact name.toList = .label name := by
  obtain ⟨hname, c, hc, hdigit⟩ := h
  obtain ⟨hne, halnum⟩ := isName_iff.mp hname
  have hempty : name.toList.isEmpty = false := by simpa using hne
  have hdigits : name.toList.all isDigit = false :=
    List.all_eq_false.mpr ⟨c, hc, by simp [hdigit]⟩
  have hall : name.toList.all isAlphanumeric = true := List.all_eq_true.mpr halnum
  rw [Argument.ofCompact, hempty, hdigits, hall]
  simp

theorem ofCompact_register {name : String} (h : (Token.register name).Writable) :
    Argument.ofCompact (Value.register name).text.toList = .register name := by
  have hdigit : isDigit '[' = false := by decide
  have hopen : isAlphanumeric '[' = false := by decide
  have hclose : isAlphanumeric ']' = false := by decide
  have hfilter : name.toList.filter isAlphanumeric = name.toList := List.filter_eq_self.mpr h
  have henclosed : Argument.enclosed '[' ']' ('[' :: (name.toList ++ [']'])) = true := by
    rw [Argument.enclosed, ← List.cons_append, List.getLast?_concat]
    rfl
  rw [toList_text_register, Argument.ofCompact, henclosed]
  simp [hdigit, hopen, hclose, hfilter]

theorem ofWord_operandText {o : Statement.Operand} (h : o.token.Writable) :
    (Argument.ofWord (operandText o.token).toList).token = o.token ∧
      ∀ line, (Argument.ofWord (operandText o.token).toList).fault? line = none := by
  rw [Argument.ofWord, withoutBlanks_eq_self (isBlank_operandText h)]
  cases o with
  | register name =>
    have hread : Argument.ofCompact (operandText (.register name)).toList = .register name :=
      ofCompact_register h
    rw [Statement.Operand.token, hread]
    exact ⟨rfl, fun _ => rfl⟩
  | value v =>
    cases v with
    | int n =>
      have hread : Argument.ofCompact (operandText (.value (.int n))).toList = .literal n :=
        ofCompact_int h
      rw [Statement.Operand.token, hread]
      exact ⟨rfl, fun _ => rfl⟩
    | label name =>
      have hread : Argument.ofCompact (operandText (.value (.label name))).toList = .label name :=
        ofCompact_label h
      rw [Statement.Operand.token, hread]
      exact ⟨rfl, fun _ => rfl⟩
    | register name => exact h.elim
    | empty => exact h.elim

def operandWords (s : Statement) : List (List Char) :=
  s.operands.map fun o => (operandText o.token).toList

theorem toList_statementLine (s : Statement) :
    (statementLine (statementWords s)).toList =
      [' '].intercalate (s.mnemonic.toList :: operandWords s) := by
  simp [statementLine, statementWords, Statement.openTokens, operandText, operandWords,
    Function.comp_def]

section Statement

variable {s : Statement} (h : ∀ t ∈ s.openTokens, t.Writable)

include h

theorem writable_of_mem_operands {o : Statement.Operand} (ho : o ∈ s.operands) : o.token.Writable :=
  h o.token (List.mem_cons_of_mem _ (List.mem_map_of_mem ho))

theorem words_not_blank : ∀ w ∈ s.mnemonic.toList :: operandWords s,
    w ≠ [] ∧ ∀ c ∈ w, isBlank c = false := by
  intro w hw
  rcases List.mem_cons.mp hw with rfl | hw
  · exact h (.instruction s.mnemonic) List.mem_cons_self
  · obtain ⟨o, ho, rfl⟩ := List.mem_map.mp hw
    have hwritable := writable_of_mem_operands h ho
    exact ⟨operandText_ne_nil hwritable, isBlank_operandText hwritable⟩

theorem not_mem_words {c : Char} (hc : isBlank c = true) :
    ∀ w ∈ s.mnemonic.toList :: operandWords s, c ∉ w := by
  intro w hw hmem
  rw [(words_not_blank h w hw).2 c hmem] at hc
  cases hc

theorem semicolon_not_mem_operands : ';' ∉ (operandWords s).flatMap (' ' :: ·) := by
  intro hmem
  obtain ⟨w, hw, hmem⟩ := List.mem_flatMap.mp hmem
  obtain ⟨o, ho, rfl⟩ := List.mem_map.mp hw
  have hword : ';' ∈ (operandText o.token).toList := by simpa using hmem
  exact not_mem_operandText (writable_of_mem_operands h ho) (by decide) (by decide) (by decide) hword

theorem content_statementLine (hmark : ¬ HasMark s.mnemonic.toList) :
    Line.content (statementLine (statementWords s)).toList =
      [' '].intercalate (s.mnemonic.toList :: operandWords s) := by
  rw [toList_statementLine, Line.content, intercalate_cons,
    beforeComment_append_of_not_hasMark hmark (semicolon_not_mem_operands h), ← intercalate_cons]
  exact trim_intercalate (List.cons_ne_nil _ _) (words_not_blank h)

theorem ofText_statementLine (hmark : ¬ HasMark s.mnemonic.toList) :
    Line.ofText (statementLine (statementWords s)).toList =
      Line.ofWords (s.mnemonic.toList :: operandWords s) := by
  have hne : s.mnemonic.toList ≠ [] := (h (.instruction s.mnemonic) List.mem_cons_self).1
  have hempty : ([' '].intercalate (s.mnemonic.toList :: operandWords s)).isEmpty = false := by
    rw [List.isEmpty_eq_false_iff, intercalate_cons]
    exact List.append_ne_nil_of_left_ne_nil hne _
  rw [Line.ofText, content_statementLine h hmark, hempty, if_neg Bool.false_ne_true,
    words_intercalate (List.cons_ne_nil _ _) (not_mem_words h (by decide))]

theorem ofText_statementLine_of_faithful (hfaithful : Faithful s.mnemonic) :
    Line.ofText (statementLine (statementWords s)).toList =
      .statement s.mnemonic ((operandWords s).map Argument.ofWord) := by
  obtain ⟨hmark, hcolon⟩ := hfaithful
  rw [ofText_statementLine h hmark, Line.ofWords, if_neg hcolon,
    withoutBlanks_eq_self (words_not_blank h _ List.mem_cons_self).2, String.ofList_toList]

theorem yields_statement (hfaithful : Faithful s.mnemonic) (base : Nat) :
    Yields [(Row.statement s).text.toList] base s.tokens [] := by
  apply yields_singleton
  intro known line
  have harguments : ∀ a ∈ (operandWords s).map Argument.ofWord, a.fault? line = none := by
    intro a ha
    obtain ⟨w, hw, rfl⟩ := List.mem_map.mp ha
    obtain ⟨o, ho, rfl⟩ := List.mem_map.mp hw
    exact (ofWord_operandText (writable_of_mem_operands h ho)).2 line
  have htokens : ((operandWords s).map Argument.ofWord).map Argument.token =
      s.operands.map Statement.Operand.token := by
    rw [operandWords, List.map_map, List.map_map]
    exact List.map_congr_left fun o ho =>
      (ofWord_operandText (writable_of_mem_operands h ho)).1
  obtain ⟨hts, hbs, hfault⟩ := ofArguments_of_no_fault harguments
  rw [Row.text, ofText_statementLine_of_faithful h hfaithful, ofLine, andThen_of_none rfl]
  refine ⟨?_, hbs, hfault⟩
  rw [hts, htokens]
  rfl

end Statement

theorem ofText_of_content_word {text w : List Char} (hcontent : Line.content text = w) (hne : w ≠ [])
    (hblank : ∀ c ∈ w, isBlank c = false) : Line.ofText text = Line.ofWords [w] := by
  have hspace : ' ' ∉ w := by
    intro hmem
    have hnot := hblank ' ' hmem
    exact absurd hnot (by decide)
  rw [Line.ofText, hcontent, if_neg (by simpa using hne), words, splitAt_of_not_mem hspace]

theorem ofText_labelLine {name : String} (h : isName name.toList = true) :
    Line.ofText (labelLine name).toList = .label name false := by
  obtain ⟨hne, halnum⟩ := isName_iff.mp h
  have htext : (labelLine name).toList = name.toList ++ [':'] := by simp [labelLine]
  have hblank : ∀ c ∈ name.toList ++ [':'], isBlank c = false := by
    intro c hc
    rcases List.mem_append.mp hc with hc | hc
    · exact isBlank_of_isAlphanumeric (halnum c hc)
    · rw [List.mem_singleton.mp hc]
      decide
  have hsemicolon : ';' ∉ name.toList ++ [':'] := by
    intro hc
    rcases List.mem_append.mp hc with hc | hc
    · exact not_mem_of_forall halnum (by decide) hc
    · exact absurd (List.mem_singleton.mp hc) (by decide)
  have hcontent : Line.content (labelLine name).toList = name.toList ++ [':'] := by
    rw [htext, Line.content]
    have hkept : beforeComment ([] ++ (name.toList ++ [':'])) = name.toList ++ [':'] :=
      beforeComment_append_of_not_hasMark (by simp [HasMark]) hsemicolon
    rw [List.nil_append] at hkept
    rw [hkept]
    exact trim_eq_self (fun c hc => hblank c (List.mem_of_mem_head? hc))
      (fun c hc => hblank c (List.mem_of_mem_getLast? hc))
  have hfilter : (name.toList ++ [':']).filter (· != ':') = name.toList := by
    rw [List.filter_append, List.filter_eq_self.mpr]
    · simp
    · intro c hc
      have hcolon : c ≠ ':' := fun he => not_mem_of_forall halnum (by decide) (he ▸ hc)
      simpa using hcolon
  rw [ofText_of_content_word hcontent (by simp) hblank, Line.ofWords, if_pos (by simp), hfilter,
    String.ofList_toList]
  rfl

theorem ofLine_labelLine {name : String} (h : isName name.toList = true) (known : String → Bool)
    (line index : Nat) :
    ofLine known line index (Line.ofText (labelLine name).toList) =
      { bindings := [(name, index)], notes := [.trace (.labelBound name index)] } := by
  have hname : name ≠ "" := by
    rintro rfl
    exact absurd h (by decide)
  rw [ofText_labelLine h, ofLine, ofLabel, if_neg hname, h]
  rfl

theorem yields_label {name : String} (h : isName name.toList = true) (base : Nat) :
    Yields [(Row.label name).text.toList] base [] [(name, base)] := by
  apply yields_singleton
  intro known line
  rw [Row.text, ofLine_labelLine h]
  exact ⟨rfl, rfl, rfl⟩

theorem yields_comment (rest : List Char) (base : Nat) : Yields [';' :: ';' :: rest] base [] [] :=
  yields_singleton fun _ _ => ⟨rfl, rfl, rfl⟩

theorem yields_stray (t : Token) (base : Nat) : Yields [(Row.stray t).text.toList] base [] [] := by
  rcases eq_or_ne t .statementEnd with rfl | hoperand
  · exact yields_comment _ base
  · rw [toList_text_stray hoperand]
    exact yields_comment _ base

theorem yields_row {r : Row} (h : r.All IsLabelName Token.Printable) (base : Nat) :
    Yields [r.text.toList] base r.tokens (bindings base [r]) := by
  cases r with
  | label name => exact yields_label h base
  | statement s =>
    exact yields_statement (fun t ht => (h t ht).writable) (h _ List.mem_cons_self).2 base
  | stray t => exact yields_stray t base

theorem yields_rows {rs : List Row} (h : ∀ r ∈ rs, r.All IsLabelName Token.Printable) (base : Nat) :
    Yields (rs.map fun r => r.text.toList) base (rs.flatMap Row.tokens) (bindings base rs) := by
  induction rs generalizing base with
  | nil => exact yields_nil base
  | cons r rest ih =>
    have hfirst := yields_row (h r List.mem_cons_self) base
    have hrest := ih (fun x hx => h x (List.mem_cons_of_mem _ hx)) (base + r.tokens.length)
    have hsplit := bindings_append base [r] rest
    rw [List.flatMap_singleton, List.singleton_append] at hsplit
    rw [hsplit, List.flatMap_cons]
    exact hfirst.append hrest

theorem newline_not_mem_operandText {t : Token} (h : t.Writable) :
    '\n' ∉ (operandText t).toList := by
  cases t with
  | instruction name => exact fun hmem => absurd (h.2 '\n' hmem) (by decide)
  | register name =>
    exact not_mem_operandText (o := .register name) h (by decide) (by decide) (by decide)
  | value v => exact not_mem_operandText (o := .value v) h (by decide) (by decide) (by decide)
  | statementEnd => exact List.not_mem_nil

theorem newline_not_mem_row {r : Row} (h : r.All IsLabelName Token.Writable) :
    '\n' ∉ r.text.toList := by
  cases r with
  | label name =>
    have hname : '\n' ∉ name.toList := not_mem_of_forall (isName_iff.mp h).2 (by decide)
    simpa [Row.text, labelLine] using hname
  | statement s =>
    have hwords := not_mem_words h (c := '\n') (by decide)
    rw [Row.text, toList_statementLine, intercalate_cons]
    intro hmem
    rcases List.mem_append.mp hmem with hmem | hmem
    · exact hwords _ List.mem_cons_self hmem
    · obtain ⟨w, hw, hmem⟩ := List.mem_flatMap.mp hmem
      exact hwords w (List.mem_cons_of_mem _ hw) (by simpa using hmem)
  | stray t =>
    rcases eq_or_ne t .statementEnd with rfl | hoperand
    · decide
    · intro hmem
      rw [toList_text_stray hoperand] at hmem
      rcases List.mem_append.mp hmem with hmem | hmem
      · exact absurd hmem (by decide)
      · exact newline_not_mem_operandText h hmem

/-- The lines of a listing are its rows, and an empty line behind them. -/
theorem lines_join {rs : List Row} (h : ∀ r ∈ rs, r.All IsLabelName Token.Writable) :
    Text.lines (join (rs.map Row.text)).toList = (rs.map fun r => r.text.toList) ++ [[]] := by
  have htext : (join (rs.map Row.text)).toList =
      (rs.map fun r => r.text.toList).flatMap (· ++ ['\n']) := by
    simp [join, List.flatMap_map]
  rw [htext]
  apply lines_flatMap
  intro l hl
  obtain ⟨r, hr, rfl⟩ := List.mem_map.mp hl
  exact newline_not_mem_row (h r hr)

theorem yields_join {rs : List Row} (hrows : ∀ r ∈ rs, r.All IsLabelName Token.Writable)
    {ts : List Token} {bs : List (String × Nat)} (h : Yields (rs.map fun r => r.text.toList) 0 ts bs) :
    Yields (Text.lines (join (rs.map Row.text)).toList) 0 ts bs := by
  have hblank : Yields [[]] (0 + ts.length) [] [] := yields_singleton fun _ _ => ⟨rfl, rfl, rfl⟩
  have hall := h.append hblank
  rw [List.append_nil, List.append_nil] at hall
  rwa [lines_join hrows]

theorem scan_join {ts : List Token} {labels : Labels} (htokens : ∀ t ∈ ts, t.Printable)
    (hlabels : ∀ l ∈ labels, IsLabelName l.1) (hnames : (Table.names labels).Nodup)
    (hclear : Clear labels 0 false ts) (m : Machine) :
    (m.scan (join ((rows ts labels).map Row.text))).2 = .ok (normalise ts) ∧
      ∀ name, (m.scan (join ((rows ts labels).map Row.text))).1.labels.get? name =
        (Table.get? labels name).map (position ts) := by
  have hrows := all_of_mem_rows hlabels htokens
  have hyields := yields_join (fun r hr => (hrows r hr).imp fun t ht => ht.writable)
    (yields_rows hrows 0)
  rw [flatMap_tokens_rows] at hyields
  obtain ⟨hscan, hbound⟩ := Machine.scan_of_yields hyields m
  refine ⟨hscan, fun name => ?_⟩
  rw [hbound, get?_bindings_rows hclear hnames]

/-- A listing is read as the normal form of the stream it was written from. Its labels, and no others,
are bound to where the normal form has them. -/
theorem scan_text {ts : List Token} {labels : Labels} {written : String}
    (htokens : ∀ t ∈ ts, t.Printable) (hlabels : ∀ l ∈ labels, IsLabelName l.1)
    (hnames : (Table.names labels).Nodup) (h : text ts labels = .ok written) (m : Machine) :
    (m.scan written).2 = .ok (normalise ts) ∧
      ∀ name, (m.scan written).1.labels.get? name = (Table.get? labels name).map (position ts) := by
  obtain ⟨hclear, rfl⟩ := (text_eq_ok_iff ts labels written).mp h
  exact scan_join htokens hlabels hnames hclear m

theorem scan_text_interrupted :
    text [.statementEnd, .instruction "SET", .register "a", .value (.int 5), .instruction "JMP",
        .value (.label "L")] [("L", 1), ("end", 9), ("first", -1)] =
      .ok ";; stray statement end\nL:\nSET [a] 5\nJMP L\nfirst:\nend:\n" ∧
    (({} : Machine).scan ";; stray statement end\nL:\nSET [a] 5\nJMP L\nfirst:\nend:\n").2 =
      .ok [.instruction "SET", .register "a", .value (.int 5), .statementEnd, .instruction "JMP",
        .value (.label "L"), .statementEnd] ∧
    (({} : Machine).scan
      ";; stray statement end\nL:\nSET [a] 5\nJMP L\nfirst:\nend:\n").1.labels.get? "end" = some 7 := by
  have hwritten : text [.statementEnd, .instruction "SET", .register "a", .value (.int 5),
      .instruction "JMP", .value (.label "L")] [("L", 1), ("end", 9), ("first", -1)] =
      .ok ";; stray statement end\nL:\nSET [a] 5\nJMP L\nfirst:\nend:\n" := by
    have hleft : leftoverLines [("L", 1), ("end", 9), ("first", -1)] 6 = ["first:", "end:"] := by
      simp [leftoverLines, List.mergeSort, List.MergeSort.Internal.splitInTwo, before, labelLine]
    change Except.map join
      (Except.map (· ++ leftoverLines [("L", 1), ("end", 9), ("first", -1)] 6) _) = _
    rw [hleft]
    decide +kernel
  obtain ⟨htokens, hlabels⟩ :=
    scan_text (by decide +kernel) (by decide +kernel) (by decide) hwritten {}
  exact ⟨hwritten, htokens, hlabels "end"⟩

end Listing

end LineAssembly
