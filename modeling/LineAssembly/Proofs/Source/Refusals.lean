import LineAssembly.Proofs.Source.Messages

/-! # Arguments that end a reading

A reading is ended by an argument in double quotes, and by a run of digits that is too long to be read as
a number, whatever number it would be. The first such argument decides, and a source without any is read
to its end. Then every word of digits has become one token: its value, or the end of the statement and
one message where the value is too great.
-/

set_option autoImplicit false

namespace LineAssembly

open Text

namespace Argument

/-- A word that starts and ends with a double quote, be it the same one. -/
def IsQuoted (word : List Char) : Prop :=
  word.head? = some '\x22' ∧ word.getLast? = some '\x22'

instance (word : List Char) : Decidable (IsQuoted word) :=
  inferInstanceAs (Decidable (_ ∧ _))

def IsOverlong (word : List Char) : Prop :=
  IsDigits word ∧ Numeral.digitLimit < word.length

instance (word : List Char) : Decidable (IsOverlong word) :=
  inferInstanceAs (Decidable (_ ∧ _))

/-- The fault of a word in the given line. -/
def refusal? (line : Nat) (word : List Char) : Option Fault :=
  if IsQuoted word then some (.quotedArgument line (String.ofList word))
  else if IsOverlong word then some (.literal (.numeral (.tooManyDigits word.length)))
  else none

variable {word : List Char} {line : Nat}

theorem not_isQuoted_of_head? {c : Char} (h : word.head? = some c) (hc : c ≠ '\x22') :
    ¬ IsQuoted word := by
  rintro ⟨hfirst, -⟩
  exact hc (Option.some.inj (h.symm.trans hfirst))

theorem not_isQuoted_of_forall {p : Char → Bool} (h : ∀ c ∈ word, p c = true)
    (hp : p '\x22' = false) : ¬ IsQuoted word := by
  rintro ⟨hfirst, -⟩
  exact not_mem_of_forall h hp (List.mem_of_mem_head? hfirst)

theorem refusal?_eq_some_iff {fault : Fault} :
    refusal? line word = some fault ↔
      IsQuoted word ∧ fault = .quotedArgument line (String.ofList word) ∨
        IsOverlong word ∧ fault = .literal (.numeral (.tooManyDigits word.length)) := by
  have hexclusive : IsOverlong word → ¬ IsQuoted word := fun h =>
    not_isQuoted_of_forall h.1.2 (by decide)
  rw [refusal?]
  split_ifs with hquoted hoverlong
  · have hshort : ¬ IsOverlong word := fun h => hexclusive h hquoted
    simp [hquoted, hshort, eq_comm]
  · simp [hquoted, hoverlong, eq_comm]
  · simp [hquoted, hoverlong]

theorem refusal?_eq_none_iff :
    refusal? line word = none ↔ ¬ IsQuoted word ∧ ¬ IsOverlong word := by
  rw [refusal?]
  split_ifs with hquoted hoverlong
  · simp [hquoted]
  · simp [hoverlong]
  · simp [hquoted, hoverlong]

theorem enclosed_iff_isQuoted : enclosed '\x22' '\x22' word = true ↔ IsQuoted word := by
  simp [enclosed, IsQuoted]

theorem fault?_ofCompact_of_isDigits (h : IsDigits word) :
    (ofCompact word).fault? line = refusal? line word := by
  have hquoted : ¬ IsQuoted word := not_isQuoted_of_forall h.2 (by decide)
  rw [ofCompact_of_isDigits h]
  by_cases hlong : Numeral.digitLimit < word.length
  · rw [if_pos hlong]
    exact (refusal?_eq_some_iff.mpr (.inr ⟨⟨h, hlong⟩, rfl⟩)).symm
  · rw [if_neg hlong, refusal?_eq_none_iff.mpr ⟨hquoted, fun hoverlong => hlong hoverlong.2⟩]
    split_ifs <;> rfl

/-- A word of another kind than digits is refused for its quotes only. -/
theorem fault?_ofCompact (line : Nat) (word : List Char) :
    (ofCompact word).fault? line = refusal? line word := by
  by_cases hdigits : IsDigits word
  · exact fault?_ofCompact_of_isDigits hdigits
  · have hnone (hquoted : ¬ IsQuoted word) : none = refusal? line word :=
      (refusal?_eq_none_iff.mpr ⟨hquoted, fun hoverlong => hdigits hoverlong.1⟩).symm
    rw [ofCompact]
    split_ifs with hempty hall halnum hregister hquoted
    · apply hnone
      rintro ⟨hfirst, -⟩
      rw [List.isEmpty_iff.mp hempty] at hfirst
      cases hfirst
    · exact absurd ⟨by simpa using hempty, by simpa using hall⟩ hdigits
    · exact hnone (not_isQuoted_of_forall (by simpa using halnum) (by decide))
    · have hfirst : word.head? = some '[' := by
        simp only [enclosed, Bool.and_eq_true, beq_iff_eq] at hregister
        exact hregister.1
      exact hnone (not_isQuoted_of_head? hfirst (by decide))
    · exact (refusal?_eq_some_iff.mpr (.inl ⟨enclosed_iff_isQuoted.mp hquoted, rfl⟩)).symm
    · exact hnone fun h => hquoted (enclosed_iff_isQuoted.mpr h)

end Argument

/-- The line and the word of a message about a value that is too great. -/
def Diagnostic.tooGreat? : Diagnostic → Option (Nat × List Char)
  | .line number (.literalOutOfRange word) => some (number, word.toList)
  | _ => none

namespace Argument

variable {word : List Char} {line : Nat}

theorem token_ofCompact_of_isDigits (h : IsDigits word) (hshort : ¬ IsOverlong word) :
    (Numeral.positional word ≤ Value.greatestInt → ∃ n : Int32,
      n.toInt = Numeral.positional word ∧ (ofCompact word).token = .value (.int n)) ∧
    (Value.greatestInt < Numeral.positional word → (ofCompact word).token = .statementEnd) := by
  rw [ofCompact_of_isDigits h, if_neg fun hlong => hshort ⟨h, hlong⟩]
  constructor
  · intro hfits
    refine ⟨Int32.ofInt (Numeral.positional word), ?_, ?_⟩
    · rw [Value.greatestInt] at hfits
      exact Int32.toInt_ofInt_of_le (by omega) (by omega)
    · rw [if_neg (by omega)]
      rfl
  · intro hgreat
    rw [if_pos hgreat]
    rfl

end Argument

namespace Line

/-- All arguments of some lines, in order, each with the number of its line. -/
def numberedArguments (line : Nat) (ls : List (List Char)) : List (Nat × List Char) :=
  (ls.zipIdx line).flatMap fun l => (argumentWords l.1).map fun word => (l.2, word)

theorem numberedArguments_cons (line : Nat) (text : List Char) (rest : List (List Char)) :
    numberedArguments line (text :: rest) =
      (argumentWords text).map (fun word => (line, word)) ++ numberedArguments (line + 1) rest := by
  simp [numberedArguments]

theorem exists_mem_numberedArguments {ls : List (List Char)} {text word : List Char}
    (htext : text ∈ ls) (hword : word ∈ argumentWords text) (line : Nat) :
    ∃ number, (number, word) ∈ numberedArguments line ls := by
  induction ls generalizing line with
  | nil => cases htext
  | cons first rest ih =>
    rw [numberedArguments_cons]
    rcases List.mem_cons.mp htext with rfl | htext
    · exact ⟨line, List.mem_append_left _ (List.mem_map_of_mem hword)⟩
    · obtain ⟨number, hmem⟩ := ih htext (line + 1)
      exact ⟨number, List.mem_append_right _ hmem⟩

theorem ofText_cases (text : List Char) :
    ((∃ name shared, ofText text = .label name shared) ∨ ofText text = .blank) ∧
        argumentWords text = [] ∨
      ∃ mnemonic, ofText text = .statement mnemonic ((argumentWords text).map Argument.ofCompact) := by
  by_cases hlabel : IsLabel text
  · exact .inl ⟨.inl ⟨_, _, ofText_of_isLabel hlabel⟩, if_pos (.inr hlabel)⟩
  · by_cases hcontent : content text = []
    · exact .inl ⟨.inr ((ofText_eq text).trans (if_pos hcontent)), if_pos (.inl hcontent)⟩
    · exact .inr ⟨_, ofText_of_isStatement ⟨hcontent, hlabel⟩⟩

theorem tooGreat_arguments (number : Nat) (ws : List (List Char)) :
    ((ws.filterMap Argument.message?).map (Diagnostic.line number)).filterMap Diagnostic.tooGreat? =
      (ws.map fun word => (number, word)).filter fun a => Argument.IsTooGreat a.2 := by
  induction ws with
  | nil => rfl
  | cons word rest ih =>
    rw [List.filterMap_cons, List.map_cons, List.filter_cons, ← ih, Argument.message?]
    by_cases hempty : word = []
    · have hsmall : ¬ Argument.IsTooGreat word := fun hgreat => hgreat.1.1 hempty
      simp only [if_pos hempty, decide_eq_false hsmall]
      rfl
    · by_cases hgreat : Argument.IsTooGreat word <;> simp [hempty, hgreat, Diagnostic.tooGreat?]

theorem tooGreat_messages (known : String → Bool) (number : Nat) (text : List Char) :
    ((messages known text).map (Diagnostic.line number)).filterMap Diagnostic.tooGreat? =
      ((argumentWords text).map fun word => (number, word)).filter
        fun a => Argument.IsTooGreat a.2 := by
  rw [messages]
  split_ifs with hcontent hlabel hknown
  · rw [argumentWords, if_pos (.inl hcontent)]
    rfl
  · rw [argumentWords, if_pos (.inr hlabel), labelMessage?]
    split_ifs <;> rfl
  all_goals exact tooGreat_arguments number (argumentWords text)

end Line

namespace Reading

open Argument (refusal? IsTooGreat)
open Line (argumentWords numberedArguments numberedArguments_cons)

variable {known : String → Bool} {line index : Nat}

theorem fault?_ofArguments (ws : List (List Char)) :
    (ofArguments line (ws.map Argument.ofCompact)).fault? = ws.findSome? (refusal? line) := by
  induction ws with
  | nil => rfl
  | cons word rest ih =>
    rw [List.map_cons, ofArguments, List.findSome?_cons]
    have hword := Argument.fault?_ofCompact line word
    cases hrefusal : refusal? line word with
    | some fault =>
      have hfirst : (ofArgument line (Argument.ofCompact word)).fault? = some fault := by
        simp [ofArgument, hword, hrefusal]
      rw [andThen_of_fault? hfirst, hfirst]
    | none =>
      have hfirst : (ofArgument line (Argument.ofCompact word)).fault? = none := by
        simp [ofArgument, hword, hrefusal]
      rw [andThen_of_none hfirst]
      exact ih

theorem fault?_ofLine (text : List Char) :
    (ofLine known line index (Line.ofText text)).fault? =
      (argumentWords text).findSome? (refusal? line) := by
  rcases Line.ofText_cases text with ⟨⟨name, shared, htext⟩ | htext, hwords⟩ | ⟨mnemonic, htext⟩
  · rw [htext, hwords, ofLine, ofLabel]
    split_ifs <;> rfl
  · rw [htext, hwords]
    rfl
  · rw [htext, ofLine, andThen_of_none rfl]
    exact fault?_ofArguments _

/-- A reading has the fault of its first refused argument, if there is one. -/
theorem fault?_ofLines (ls : List (List Char)) :
    (ofLines known line index ls).fault? =
      (numberedArguments line ls).findSome? fun a => refusal? a.1 a.2 := by
  induction ls generalizing line index with
  | nil => rfl
  | cons text rest ih =>
    have hwords : ((argumentWords text).map fun word => (line, word)).findSome?
        (fun a => refusal? a.1 a.2) = (ofLine known line index (Line.ofText text)).fault? :=
      (List.findSome?_map ..).trans (fault?_ofLine text).symm
    rw [ofLines, numberedArguments_cons, List.findSome?_append, hwords]
    cases hfault : (ofLine known line index (Line.ofText text)).fault? with
    | some fault => rw [andThen_of_fault? hfault, hfault, Option.some_or]
    | none =>
      rw [andThen_of_none hfault, Option.none_or]
      exact ih

/-- Each word whose value is too great has one message, and no other word has such a message. -/
theorem tooGreat_ofLines {ls : List (List Char)} (h : (ofLines known line index ls).fault? = none) :
    (ofLines known line index ls).errors.filterMap Diagnostic.tooGreat? =
      (numberedArguments line ls).filter fun a => IsTooGreat a.2 := by
  rw [errors_ofLines h, numberedArguments, List.filterMap_flatMap, List.filter_flatMap]
  simp only [Line.tooGreat_messages]

end Reading

/-- All arguments of a source, in order, each with the number of its line. -/
def argumentsOf (source : String) : List (Nat × List Char) :=
  Line.numberedArguments 1 (Text.lines source.toList)

open Argument (IsQuoted IsDigits IsOverlong IsTooGreat refusal? refusal?_eq_some_iff
  refusal?_eq_none_iff)

/-- The first argument that cannot be read, with the number of its line. -/
def firstRefused? (source : String) : Option (Nat × List Char) :=
  (argumentsOf source).find? fun a => IsQuoted a.2 ∨ IsOverlong a.2

namespace Machine

open Line (argumentWords slots)

variable {m : Machine} {source : String} {ts : List Token}

theorem scan_eq_error_iff {fault : Fault} :
    (m.scan source).2 = .error fault ↔
      ∃ number word, firstRefused? source = some (number, word) ∧
        refusal? number word = some fault := by
  have hrefused (a : Nat × List Char) :
      refusal? a.1 a.2 = none ↔ ¬ (IsQuoted a.2 ∨ IsOverlong a.2) := by
    rw [refusal?_eq_none_iff, not_or]
  have hscan : (m.scan source).2 = .error fault ↔
      (argumentsOf source).findSome? (fun a => refusal? a.1 a.2) = some fault := by
    rw [argumentsOf, ← Reading.fault?_ofLines, ← Reading.ofSource, scan]
    cases (Reading.ofSource m.instructions.has source).fault? <;> simp
  rw [hscan, List.findSome?_eq_some_iff]
  constructor
  · rintro ⟨before, ⟨number, word⟩, after, hsplit, hfault, hbefore⟩
    refine ⟨number, word, ?_, hfault⟩
    rw [firstRefused?, List.find?_eq_some_iff_append]
    refine ⟨?_, before, after, hsplit, fun a ha => ?_⟩
    · have hnot := (hrefused (number, word)).not.mp (by rw [hfault]; exact Option.some_ne_none _)
      simpa using not_not.mp hnot
    · simpa using (hrefused a).mp (hbefore a ha)
  · rintro ⟨number, word, hfirst, hfault⟩
    obtain ⟨-, before, after, hsplit, hbefore⟩ := List.find?_eq_some_iff_append.mp hfirst
    refine ⟨before, (number, word), after, hsplit, hfault, fun a ha => ?_⟩
    rw [hrefused a]
    simpa using hbefore a ha

theorem exists_scan_eq_error_iff :
    (∃ fault, (m.scan source).2 = .error fault) ↔
      ∃ a ∈ argumentsOf source, IsQuoted a.2 ∨ IsOverlong a.2 := by
  constructor
  · rintro ⟨fault, hfault⟩
    obtain ⟨number, word, hfirst, -⟩ := scan_eq_error_iff.mp hfault
    exact ⟨_, List.mem_of_find?_eq_some hfirst, by simpa using List.find?_some hfirst⟩
  · rintro ⟨a, ha, hrefused⟩
    have hsome : (firstRefused? source).isSome = true :=
      List.find?_isSome.mpr ⟨a, ha, by simpa using hrefused⟩
    obtain ⟨⟨number, word⟩, hfirst⟩ := Option.isSome_iff_exists.mp hsome
    have hword : refusal? number word ≠ none := by
      rw [Ne, refusal?_eq_none_iff, ← not_or, not_not]
      simpa using List.find?_some hfirst
    obtain ⟨fault, hfault⟩ := Option.ne_none_iff_exists'.mp hword
    exact ⟨fault, scan_eq_error_iff.mpr ⟨number, word, hfirst, hfault⟩⟩

/-- The token of an argument stands behind the tokens of the lines before, the mnemonic and the arguments
before it. -/
theorem getElem?_scan (h : (m.scan source).2 = .ok ts) {before after : List (List Char)}
    {text word : List Char} {k : Nat} (hlines : Text.lines source.toList = before ++ text :: after)
    (hword : (argumentWords text)[k]? = some word) :
    ts[(before.map slots).sum + 1 + k]? = some (Argument.ofCompact word).token := by
  rcases Line.ofText_cases text with ⟨-, hwords⟩ | ⟨mnemonic, htext⟩
  · rw [hwords] at hword
    cases hword
  · have hlength : k < (argumentWords text).length := (List.getElem?_eq_some_iff.mp hword).1
    rw [tokens_scan h, hlines, List.flatMap_append, List.flatMap_cons, htext, Nat.add_assoc,
      ← Line.length_flatMap_tokens, List.getElem?_append_right (by omega), Nat.add_sub_cancel_left,
      Line.tokens, Nat.add_comm 1 k, List.cons_append, List.getElem?_cons_succ, List.append_assoc,
      List.getElem?_append_left (by simpa using hlength), List.getElem?_map, List.getElem?_map, hword]
    rfl

/-- Exactly the arguments in double quotes and the runs of too many digits are refused, and the first of
them ends the scan. A scan that goes to its end has made one token of each word of digits, its value or
the end of the statement, with one message for each value that is too great. No scan halts the machine. -/
theorem scan_refuses (m : Machine) (source : String) :
    ((∃ fault, (m.scan source).2 = .error fault) ↔
      ∃ a ∈ argumentsOf source, IsQuoted a.2 ∨ IsOverlong a.2) ∧
    (∀ number word, firstRefused? source = some (number, word) →
      (IsQuoted word →
        (m.scan source).2 = .error (.quotedArgument number (String.ofList word))) ∧
      (IsOverlong word →
        (m.scan source).2 = .error (.literal (.numeral (.tooManyDigits word.length))))) ∧
    (m.scan source).1.halted = m.halted ∧
    ∀ ts, (m.scan source).2 = .ok ts →
      (∀ before text after k word, Text.lines source.toList = before ++ text :: after →
        (argumentWords text)[k]? = some word → IsDigits word →
        (Numeral.positional word ≤ Value.greatestInt → ∃ n : Int32,
          n.toInt = Numeral.positional word ∧
            ts[(before.map slots).sum + 1 + k]? = some (.value (.int n))) ∧
        (Value.greatestInt < Numeral.positional word →
          ts[(before.map slots).sum + 1 + k]? = some .statementEnd)) ∧
      ∃ added, (m.scan source).1.diagnostics.toList = m.diagnostics.toList ++ added ∧
        added.filterMap Diagnostic.tooGreat? = (argumentsOf source).filter fun a => IsTooGreat a.2 := by
  refine ⟨exists_scan_eq_error_iff, ?_, ?_, ?_⟩
  · intro number word hfirst
    constructor
    · intro hquoted
      exact scan_eq_error_iff.mpr
        ⟨number, word, hfirst, refusal?_eq_some_iff.mpr (.inl ⟨hquoted, rfl⟩)⟩
    · intro hoverlong
      exact scan_eq_error_iff.mpr
        ⟨number, word, hfirst, refusal?_eq_some_iff.mpr (.inr ⟨hoverlong, rfl⟩)⟩
  · obtain ⟨diagnostics, journal, errorCount, hscan⟩ := m.exists_scan source
    rw [hscan]
  · intro ts hts
    constructor
    · intro before text after k word hlines hword hdigits
      have htext : text ∈ Text.lines source.toList := by simp [hlines]
      obtain ⟨number, hmem⟩ :=
        Line.exists_mem_numberedArguments htext (List.mem_of_getElem? hword) 1
      have hshort : ¬ IsOverlong word := by
        intro hoverlong
        obtain ⟨fault, hfault⟩ := exists_scan_eq_error_iff.mpr ⟨_, hmem, .inr hoverlong⟩
        rw [hts] at hfault
        cases hfault
      rw [getElem?_scan hts hlines hword]
      obtain ⟨hfits, hgreat⟩ := Argument.token_ofCompact_of_isDigits hdigits hshort
      refine ⟨fun h => ?_, fun h => by rw [hgreat h]⟩
      obtain ⟨n, hn, htoken⟩ := hfits h
      exact ⟨n, hn, by rw [htoken]⟩
    · obtain ⟨hfault, -⟩ := scan_eq_ok_iff.mp hts
      exact ⟨_, m.diagnostics_scan source, Reading.tooGreat_ofLines hfault⟩

theorem argumentsOf_printing {word : List Char} (h : IsDigits word) :
    argumentsOf (String.ofList ("PRINT".toList ++ ' ' :: word)) = [(1, word)] := by
  obtain ⟨hne, hdigits⟩ := h
  have htext : "PRINT".toList ++ ' ' :: word = [' '].intercalate ["PRINT".toList, word] := by
    rw [intercalate_cons, List.flatMap_singleton]
  have hplain (c : Char) (hc : isDigit c = false) (hprint : c ∉ "PRINT".toList) (hspace : c ≠ ' ') :
      c ∉ "PRINT".toList ++ ' ' :: word := by
    simp only [List.mem_append, List.mem_cons, not_or]
    exact ⟨hprint, hspace, not_mem_of_forall hdigits hc⟩
  have hwords : ∀ w ∈ ["PRINT".toList, word], w ≠ [] ∧ ∀ c ∈ w, isBlank c = false := by
    have hmnemonic : ("PRINT".toList.all fun c => !isBlank c) = true := by decide
    intro w hw
    rcases List.mem_pair.mp hw with rfl | rfl
    · exact ⟨by decide, fun c hc => by simpa using List.all_eq_true.mp hmnemonic c hc⟩
    · exact ⟨hne, fun c hc => isBlank_of_isDigit (hdigits c hc)⟩
  have hcontent : Line.content ("PRINT".toList ++ ' ' :: word) =
      "PRINT".toList ++ ' ' :: word := by
    have hcomment := @beforeComment_append_of_not_hasMark [] ("PRINT".toList ++ ' ' :: word)
      (by decide) (hplain ';' (by decide) (by decide) (by decide))
    rw [List.nil_append] at hcomment
    rw [Line.content, hcomment, htext, trim_intercalate (by simp) hwords]
  have hsplit : words ("PRINT".toList ++ ' ' :: word) = ["PRINT".toList, word] := by
    rw [htext]
    refine words_intercalate (by simp) fun w hw hspace => ?_
    exact absurd ((hwords w hw).2 ' ' hspace) (by decide)
  have harguments : argumentWords ("PRINT".toList ++ ' ' :: word) = [word] := by
    rw [argumentWords, Line.firstWord, hcontent, hsplit, if_neg (by simp), List.tail_cons,
      List.map_singleton, withoutBlanks_eq_self (hwords word (by simp)).2]
  rw [argumentsOf, String.toList_ofList, Text.lines,
    splitAt_of_not_mem (hplain '\n' (by decide) (by decide) (by decide)),
    Line.numberedArguments_cons, harguments]
  rfl

def ones (count : Nat) : List Char :=
  List.replicate count '1'

theorem isDigits_ones (count : Nat) : IsDigits (ones (count + 1)) := by
  refine ⟨List.cons_ne_nil _ _, fun c hc => ?_⟩
  rw [List.eq_of_mem_replicate hc]
  decide

theorem isOverlong_ones : IsOverlong (ones 4301) := by
  refine ⟨isDigits_ones 4300, ?_⟩
  rw [ones, List.length_replicate]
  decide

theorem firstRefused?_ones :
    firstRefused? (String.ofList ("PRINT".toList ++ ' ' :: ones 4301)) = some (1, ones 4301) := by
  rw [firstRefused?, argumentsOf_printing (isDigits_ones 4300)]
  exact List.find?_cons_of_pos (by simpa using .inr isOverlong_ones)

/-- With one digit too many a number is neither read nor reported: the scan does not go to its end. -/
theorem scan_overlong :
    argumentsOf (String.ofList ("PRINT".toList ++ ' ' :: ones 4301)) = [(1, ones 4301)] ∧
    IsDigits (ones 4301) ∧ ¬ IsQuoted (ones 4301) ∧
    (standard.scan (String.ofList ("PRINT".toList ++ ' ' :: ones 4301))).2 =
      .error (.literal (.numeral (.tooManyDigits 4301))) := by
  have hdigits : IsDigits (ones 4301) := isDigits_ones 4300
  have hquoted : ¬ IsQuoted (ones 4301) := Argument.not_isQuoted_of_forall hdigits.2 (by decide)
  have hlength : (ones 4301).length = 4301 := List.length_replicate
  refine ⟨argumentsOf_printing hdigits, hdigits, hquoted, ?_⟩
  refine scan_eq_error_iff.mpr ⟨1, ones 4301, firstRefused?_ones, ?_⟩
  exact refusal?_eq_some_iff.mpr (.inr ⟨isOverlong_ones, by rw [hlength]⟩)

end Machine

end LineAssembly
