import LineAssembly.Machine.Configuration
import LineAssembly.Proofs.Source.Labels

/-! # The messages of a reading

What is reported about a line can be told from its words alone, and the messages of a source are those of
its lines, one line after the other. A label line has at most one message, which decides whether the label
is bound. In a statement line the mnemonic is looked at first and then each argument, and an argument
that is not reported may still be no operand.
-/

set_option autoImplicit false

namespace LineAssembly

open Text

namespace Argument

def IsDigits (word : List Char) : Prop :=
  word ≠ [] ∧ ∀ c ∈ word, isDigit c = true

instance (word : List Char) : Decidable (IsDigits word) :=
  decidable_of_iff (word ≠ [] ∧ word.all isDigit = true) (by simp [IsDigits])

/-- Digits whose value is above the signed 32-bit range. -/
def IsTooGreat (word : List Char) : Prop :=
  IsDigits word ∧ Value.greatestInt < Numeral.positional word

instance (word : List Char) : Decidable (IsTooGreat word) :=
  inferInstanceAs (Decidable (_ ∧ _))

/-- What is reported about an argument without its blanks. -/
def message? (word : List Char) : Option LineError :=
  if word = [] then some .emptyArgument
  else if IsTooGreat word then some (.literalOutOfRange (String.ofList word))
  else none

variable {word : List Char} {line : Nat}

theorem isSome_message?_iff : (message? word).isSome = true ↔ word = [] ∨ IsTooGreat word := by
  rw [message?]
  split_ifs with hempty hgreat
  · simp [hempty]
  · simp [hgreat]
  · simp [hempty, hgreat]

theorem ofCompact_of_isDigits (h : IsDigits word) :
    ofCompact word = if Numeral.digitLimit < word.length then
        .unreadable (.numeral (.tooManyDigits word.length))
      else if Value.greatestInt < Numeral.positional word then .outOfRange (String.ofList word)
      else .literal (Int32.ofInt (Numeral.positional word)) := by
  obtain ⟨hne, hdigits⟩ := h
  rw [ofCompact, if_neg (by simpa using hne), if_pos (by simpa using hdigits), ofDigits,
    Literal.parse_of_digits hne hdigits]
  split_ifs <;> rfl

/-- Digits are read as a number before anything else is tried, so their value decides. -/
theorem error?_ofCompact (h : (ofCompact word).fault? line = none) :
    (ofCompact word).error? = message? word := by
  by_cases hempty : word = []
  · subst hempty
    rfl
  · rw [message?, if_neg hempty]
    by_cases hdigits : IsDigits word
    · rw [ofCompact_of_isDigits hdigits] at h ⊢
      by_cases hlong : Numeral.digitLimit < word.length
      · rw [if_pos hlong] at h
        cases h
      · rw [if_neg hlong]
        by_cases hgreat : Value.greatestInt < Numeral.positional word
        · rw [if_pos hgreat, if_pos ⟨hdigits, hgreat⟩]
          rfl
        · rw [if_neg hgreat, if_neg fun hgreat' => hgreat hgreat'.2]
          rfl
    · have hother : ¬ word.all isDigit = true := by simpa [IsDigits, hempty] using hdigits
      rw [if_neg fun hgreat => hdigits hgreat.1, ofCompact, if_neg (by simpa using hempty),
        if_neg hother]
      split_ifs <;> rfl

end Argument

namespace Line

/-- The first word of the line ends in a colon. -/
def IsLabel (text : List Char) : Prop :=
  (firstWord text).getLast? = some ':'

instance (text : List Char) : Decidable (IsLabel text) :=
  inferInstanceAs (Decidable (_ = _))

def IsStatement (text : List Char) : Prop :=
  content text ≠ [] ∧ ¬ IsLabel text

instance (text : List Char) : Decidable (IsStatement text) :=
  inferInstanceAs (Decidable (_ ∧ _))

/-- The first word of a label line without its colons. -/
def labelName (text : List Char) : String :=
  String.ofList ((firstWord text).filter (· != ':'))

/-- The first thing that is wrong with a label line: the name is missing, the name is not alphanumeric, or
more words follow. -/
def labelMessage? (text : List Char) : Option LineError :=
  if labelName text = "" then some .labelUnnamed
  else if isName (labelName text).toList = false then some (.labelName (labelName text))
  else if 1 < (words (content text)).length then some (.labelSharesLine (labelName text))
  else none

/-- A label line binds its name if nothing is wrong with it, or only the words that follow are. -/
def Binds (text : List Char) (name : String) : Prop :=
  IsLabel text ∧ labelName text = name ∧
    (labelMessage? text = none ∨ labelMessage? text = some (.labelSharesLine name))

def mnemonic (text : List Char) : String :=
  String.ofList (withoutBlanks (firstWord text))

/-- The words behind the mnemonic of a statement, without their blanks. -/
def argumentWords (text : List Char) : List (List Char) :=
  if content text = [] ∨ (firstWord text).getLast? = some ':' then []
  else (words (content text)).tail.map withoutBlanks

/-- All that is reported about a line, in order. -/
def messages (known : String → Bool) (text : List Char) : List LineError :=
  if content text = [] then []
  else if IsLabel text then (labelMessage? text).toList
  else
    (if known (mnemonic text) then [] else [.unknownInstruction (mnemonic text)]) ++
      (argumentWords text).filterMap Argument.message?

variable {text : List Char}

theorem IsLabel.content_ne_nil (h : IsLabel text) : content text ≠ [] := by
  intro hcontent
  rw [IsLabel, firstWord_of_content hcontent] at h
  cases h

theorem binds_iff_declares {name : String} : Binds text name ↔ Declares text name := by
  have hname : (firstWord text).filter (· != ':') = name.toList ↔ labelName text = name := by
    rw [labelName, ← String.toList_inj, String.toList_ofList]
  have hempty : isName "".toList = false := by decide
  rw [Binds, Declares, hname]
  refine and_congr_right fun _ => and_congr_right fun heq => ?_
  rw [labelMessage?, heq]
  by_cases hunnamed : name = ""
  · rw [hunnamed, hempty]
    simp
  · by_cases hvalid : isName name.toList = true
    · by_cases hshared : 1 < (words (content text)).length <;> simp [hunnamed, hvalid, hshared]
    · simp [hunnamed, hvalid]

theorem ofText_of_isLabel (h : IsLabel text) :
    ofText text = .label (labelName text) (decide (1 < (words (content text)).length)) := by
  have hshared : (!(words (content text)).tail.isEmpty) =
      decide (1 < (words (content text)).length) := by
    cases words (content text) with
    | nil => rfl
    | cons first rest => cases rest <;> simp
  have hcontent := h.content_ne_nil
  rw [IsLabel] at h
  rw [ofText_eq, if_neg hcontent, if_pos h, hshared]
  rfl

theorem ofText_of_isStatement (h : IsStatement text) :
    ofText text = .statement (mnemonic text) ((argumentWords text).map Argument.ofCompact) := by
  obtain ⟨hcontent, hlabel⟩ := h
  rw [IsLabel] at hlabel
  rw [ofText_eq, if_neg hcontent, if_neg hlabel, argumentWords, if_neg (not_or.mpr ⟨hcontent, hlabel⟩),
    List.map_map]
  rfl

/-- Where nothing is known, every statement is reported once for its mnemonic. -/
theorem length_messages_of_unknown {known : String → Bool} (hknown : ∀ name, known name = false)
    (h : IsStatement text) :
    (messages known text).length =
      1 + (argumentWords text).countP fun word => word = [] ∨ Argument.IsTooGreat word := by
  have hcount : ((argumentWords text).filterMap Argument.message?).length =
      (argumentWords text).countP fun word => word = [] ∨ Argument.IsTooGreat word := by
    rw [List.length_filterMap_eq_countP]
    refine List.countP_congr fun word _ => ?_
    rw [Argument.isSome_message?_iff, decide_eq_true_iff]
  rw [messages, if_neg h.1, if_neg h.2, hknown, List.length_append, hcount]
  rfl

end Line

namespace Reading

variable {known : String → Bool} {line index : Nat}

theorem errors_ofLabel (name : String) (shared : Bool) :
    (ofLabel line index name shared).errors =
      (if name = "" then [LineError.labelUnnamed]
      else if isName name.toList = false then [.labelName name]
      else if shared then [.labelSharesLine name] else []).map (Diagnostic.line line) := by
  rw [ofLabel]
  by_cases hunnamed : name = ""
  · simp [hunnamed, errors, Note.error?]
  · by_cases hvalid : isName name.toList = true
    · cases shared <;> simp [hunnamed, hvalid, errors, Note.error?]
    · simp [hunnamed, hvalid, errors, Note.error?]

theorem errors_ofLine {text : List Char}
    (h : (ofLine known line index (Line.ofText text)).fault? = none) :
    (ofLine known line index (Line.ofText text)).errors =
      (Line.messages known text).map (Diagnostic.line line) := by
  by_cases hlabel : Line.IsLabel text
  · rw [Line.ofText_of_isLabel hlabel, Line.messages, if_neg hlabel.content_ne_nil, if_pos hlabel,
      ofLine, errors_ofLabel, Line.labelMessage?]
    split_ifs <;> simp_all
  · by_cases hcontent : Line.content text = []
    · rw [Line.ofText_eq, if_pos hcontent, Line.messages, if_pos hcontent]
      rfl
    · rw [Line.ofText_of_isStatement ⟨hcontent, hlabel⟩] at h ⊢
      obtain ⟨-, harguments⟩ := fault?_andThen h
      have hfaults := fault?_of_mem_arguments harguments
      have hmessages : ((Line.argumentWords text).map Argument.ofCompact).filterMap Argument.error? =
          (Line.argumentWords text).filterMap Argument.message? := by
        rw [List.filterMap_map]
        refine List.filterMap_congr fun word hword => ?_
        exact Argument.error?_ofCompact (hfaults _ (List.mem_map_of_mem hword))
      rw [ofLine, errors_andThen rfl, errors_ofArguments hfaults, hmessages, Line.messages,
        if_neg hcontent, if_neg hlabel, List.map_append, ofMnemonic]
      split_ifs <;> rfl

/-- The lines are numbered one after the other, whatever is on them. -/
theorem errors_ofLines {ls : List (List Char)} (h : (ofLines known line index ls).fault? = none) :
    (ofLines known line index ls).errors =
      (ls.zipIdx line).flatMap fun l => (Line.messages known l.1).map (Diagnostic.line l.2) := by
  induction ls generalizing line index with
  | nil => rfl
  | cons text rest ih =>
    obtain ⟨hfirst, hrest⟩ := fault?_andThen h
    rw [ofLines, errors_andThen hfirst, errors_ofLine hfirst, ih hrest, List.zipIdx_cons,
      List.flatMap_cons]

end Reading

namespace Machine

open Line (Binds IsStatement argumentWords slots)

variable {m : Machine} {source : String} {ts : List Token}

/-- A scan that returns has reported what its lines report, each message with the number of its line, and
has bound the labels of the lines that bind one, each at the last of them. -/
theorem scan_messages (h : (m.scan source).2 = .ok ts) :
    (m.scan source).1.diagnostics.toList = m.diagnostics.toList ++
      ((Text.lines source.toList).zipIdx 1).flatMap (fun l =>
        (Line.messages m.instructions.has l.1).map (Diagnostic.line l.2)) ∧
    (m.scan source).1.errorCount = m.errorCount +
      ((Text.lines source.toList).map fun text =>
        (Line.messages m.instructions.has text).length).sum ∧
    (∀ name index, (m.scan source).1.labels.get? name = some index ↔
      ∃ before text after, Text.lines source.toList = before ++ text :: after ∧ Binds text name ∧
        (∀ later ∈ after, ¬ Binds later name) ∧ index = (before.map slots).sum) ∧
    (m.instructions = [] → ∀ text ∈ Text.lines source.toList, IsStatement text →
      (Line.messages m.instructions.has text).length =
        1 + (argumentWords text).countP fun word => word = [] ∨ Argument.IsTooGreat word) ∧
    (m.scan source).1.halted = m.halted := by
  obtain ⟨hfault, -⟩ := scan_eq_ok_iff.mp h
  have herrors := Reading.errors_ofLines hfault
  refine ⟨?_, ?_, ?_, ?_, ?_⟩
  · rw [diagnostics_scan, Reading.ofSource, herrors]
  · have hlines : Text.lines source.toList = ((Text.lines source.toList).zipIdx 1).map Prod.fst :=
      (List.zipIdx_map_fst 1 _).symm
    rw [errorCount_scan, Reading.ofSource, herrors, List.length_flatMap]
    conv_rhs => rw [hlines, List.map_map]
    simp only [List.length_map, Function.comp_def]
  · intro name index
    rw [get?_labels_scan, Reading.ofSource, Reading.get?_bindings_ofLines hfault]
    simp only [Line.binds_iff_declares, Nat.zero_add]
  · intro hnone text _ hstatement
    refine Line.length_messages_of_unknown (fun name => ?_) hstatement
    rw [hnone]
    rfl
  · obtain ⟨diagnostics, journal, errorCount, hscan⟩ := m.exists_scan source
    rw [hscan]

def misreported : String :=
  ":\na-b: x\nL: NOP\n\n;; note\nFOO\t  2147483648 ? 7\n NOP"

/-- The last line but one has an empty argument, one that is too great, a malformed one and an operand. -/
theorem scan_messages_misreported :
    (({} : Machine).scan misreported).2 = .ok [.instruction "FOO", .statementEnd, .statementEnd,
      .statementEnd, .value (.int 7), .statementEnd, .instruction "NOP", .statementEnd] ∧
    (({} : Machine).scan misreported).1.diagnostics.toList =
      [.line 1 .labelUnnamed, .line 2 (.labelName "a-b"), .line 3 (.labelSharesLine "L"),
        .line 6 (.unknownInstruction "FOO"), .line 6 .emptyArgument,
        .line 6 (.literalOutOfRange "2147483648"), .line 7 (.unknownInstruction "NOP")] ∧
    (({} : Machine).scan misreported).1.errorCount = 7 ∧
    (({} : Machine).scan misreported).1.halted = false := by
  have hscan : (({} : Machine).scan misreported).2 = .ok [.instruction "FOO", .statementEnd,
      .statementEnd, .statementEnd, .value (.int 7), .statementEnd, .instruction "NOP",
      .statementEnd] := by
    decide +kernel
  obtain ⟨hdiagnostics, hcount, -, -, hhalted⟩ := scan_messages hscan
  refine ⟨hscan, ?_, ?_, hhalted⟩
  · rw [hdiagnostics]
    decide +kernel
  · rw [hcount]
    decide +kernel

end Machine

end LineAssembly
