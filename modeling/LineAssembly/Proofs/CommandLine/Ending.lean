import LineAssembly.Proofs.CommandLine.Interpretation
import LineAssembly.Proofs.Session.Invariant
import Mathlib.Data.Set.List

/-! # How a command ends

A command that is understood ends with 0 or 1, or in a failure. It ends with 1 for a file that cannot be
opened, for registers that cannot be declared, for a quoted argument and for any error of the program. It
fails, and has no exit code, for a file name that no file can have, for bytes that are not UTF-8, and for
a run of too many digits. Nothing else keeps it from ending with 0.
-/

set_option autoImplicit false

namespace LineAssembly

namespace Text.Utf8

/-- Bytes are decoded if and only if they encode a text. -/
theorem decode_eq_ok_iff {bytes : ByteArray} {text : String} :
    decode bytes = .ok text ↔ bytes = text.toUTF8 := by
  constructor
  · intro h
    rw [decode, String.fromUTF8?] at h
    split at h
    · rename_i found hfound
      cases h
      split at hfound
      · cases hfound
        rfl
      · cases hfound
    · cases h
  · rintro rfl
    exact decode_toUTF8 text

end Text.Utf8

/-! ## Interpreting -/

namespace Machine

/-- An interpretation on the standard instructions has no other fault than one of its scan. -/
theorem scan_of_interpret {m final : Machine} (hm : m.IsStandard) {source : String} {fuel : Nat}
    {fault : Fault} (h : m.interpret fuel source = some (final, .error fault)) :
    (m.scan source).2 = .error fault := by
  cases hscan : (m.scan source).2 with
  | error other =>
    rw [interpret_of_fault hscan] at h
    cases h
    rfl
  | ok ts =>
    by_cases hquiet : (m.scan source).1.diagnostics = m.diagnostics
    · rw [interpret_of_quiet hscan hquiet] at h
      cases result_of_run (isStandard_scan hm source) h
    · obtain ⟨n, hinterpret⟩ := interpret_of_messages hscan hquiet fuel
      rw [hinterpret] at h
      cases h

end Machine

/-- The machine of an answer is sound, so it has counted the errors that it has recorded. -/
theorem sound_interpret {fuel : Nat} {source : String} {names : List String}
    {answer : Machine × Except Fault Unit}
    (h : interpret fuel source names Instruction.standard = some answer) : answer.1.Sound := by
  have hregisters : Machine.Changes Action.Indirect {} (({} : Machine).insertRegisters names).1 :=
    Machine.changes_insertRegisters {} names
  rw [interpret] at h
  rcases hdeclared : ({} : Machine).insertRegisters names with ⟨m, fault | ⟨⟩⟩
  · rw [hdeclared] at h hregisters
    cases h
    exact hregisters.sound Machine.sound_new
  · rw [hdeclared] at h hregisters
    have hinstructions : Machine.Changes Action.Indirect m
        (m.insertInstructions Instruction.standard).1 :=
      m.changes_insertInstructions fun _ => Instruction.within_of_mem_standard
    rw [(Machine.insertInstructions_declared hdeclared).2] at hinstructions
    simp only [(Machine.insertInstructions_declared hdeclared).2] at h
    have hready := hregisters.trans hinstructions
    have hanswer := Machine.changes_interpret Action.hereditary_indirect
      (Machine.Changes.within hready Machine.within_new) h
    exact Machine.Changes.sound (hready.trans hanswer) Machine.sound_new

namespace CommandLine

open Machine (insertInstructions_declared)
open Argument (IsQuoted IsOverlong)

/-! ## Causes -/

/-- The source of a command: the text itself, or the text that the file encodes, with its lines ended in
one way. -/
inductive Options.Reads (o : Options) (open? : String → Except OpenError ByteArray) : String → Prop where
  | literal (literal : o.literal = true) : Reads o open? o.program
  | file {text : String} (file : o.literal = false) (opened : open? o.program = .ok text.toUTF8) :
    Reads o open? (String.ofList (Text.unifyNewlines text.toList))

/-- Names of registers, each valid and none twice. -/
def Declarable (registers : List (Option String)) : Prop :=
  registers.Nodup ∧ ∀ r ∈ registers, ∃ name, r = some name ∧ Text.isName name.toList = true

/-- Why a command fails. -/
inductive Options.Escapes (o : Options) (open? : String → Except OpenError ByteArray) :
    Failure → Prop where
  | nullCharacter (file : o.literal = false) (unopened : open? o.program = .error .nullCharacter) :
    Escapes o open? .nullCharacter
  | encoding {bytes : ByteArray} {fault : Text.Utf8.Fault} (file : o.literal = false)
    (opened : open? o.program = .ok bytes) (noText : ∀ text : String, bytes ≠ text.toUTF8)
    (undecoded : Text.Utf8.decode bytes = .error fault) : Escapes o open? (.encoding fault)
  | overlong {source : String} {number : Nat} {word : List Char} (reads : o.Reads open? source)
    (declarable : Declarable o.registers) (first : firstRefused? source = some (number, word))
    (overlong : IsOverlong word) :
    Escapes o open? (.machine (.literal (.numeral (.tooManyDigits word.length))))

/-- Why a command ends with 1. The errors are those of a program that is interpreted to its end. -/
inductive Options.Fails (o : Options) (open? : String → Except OpenError ByteArray) (fuel : Nat) :
    Prop where
  | unopened {code : Nat} {description : String} (file : o.literal = false)
    (unopened : open? o.program = .error (.system code description))
  | undeclarable {source : String} (reads : o.Reads open? source)
    (undeclarable : ¬ Declarable o.registers)
  | quoted {source : String} {number : Nat} {word : List Char} (reads : o.Reads open? source)
    (first : firstRefused? source = some (number, word)) (quoted : IsQuoted word)
  | reported {source : String} {names : List String} {final : Machine}
    (reads : o.Reads open? source) (named : o.registers = names.map some)
    (answered : interpret fuel source names Instruction.standard = some (final, .ok ()))
    (errors : final.diagnostics ≠ #[])

variable {o : Options} {open? : String → Except OpenError ByteArray} {source : String}

theorem execute_of_reads (h : o.Reads open? source) (fuel : Nat) :
    o.execute open? fuel = o.carryOut fuel source := by
  have hsource : o.sourceText open? = .ok source := by
    rw [Options.sourceText]
    cases h with
    | literal literal => rw [if_pos literal]
    | file file opened =>
      simp only [file, opened, decodeSource, Text.Utf8.decode_toUTF8]
      rfl
  rw [Options.execute, hsource]

theorem reads_or_ends (o : Options) (open? : String → Except OpenError ByteArray) (fuel : Nat) :
    (∃ source, o.Reads open? source) ∨ o.Fails open? fuel ∨ ∃ failure, o.Escapes open? failure := by
  cases hliteral : o.literal with
  | true => exact .inl ⟨_, .literal hliteral⟩
  | false =>
    cases hopen : open? o.program with
    | error e =>
      cases e with
      | nullCharacter => exact .inr (.inr ⟨_, .nullCharacter hliteral hopen⟩)
      | system code description => exact .inr (.inl (.unopened hliteral hopen))
    | ok bytes =>
      cases hdecode : Text.Utf8.decode bytes with
      | ok text =>
        rw [Text.Utf8.decode_eq_ok_iff.mp hdecode] at hopen
        exact .inl ⟨_, .file hliteral hopen⟩
      | error fault =>
        have hnone : ∀ text : String, bytes ≠ text.toUTF8 := by
          intro text htext
          rw [Text.Utf8.decode_eq_ok_iff.mpr htext] at hdecode
          cases hdecode
        exact .inr (.inr ⟨_, .encoding hliteral hopen hnone hdecode⟩)

/-! ## Registers -/

theorem exists_declareRegisters_iff {registers : List (Option String)} {m : Machine}
    (hthawed : m.frozen = false) :
    (∃ later, declareRegisters registers m = .ok later) ↔
      registers.Nodup ∧ ∀ r ∈ registers, ∃ name, r = some name ∧
        Text.isName name.toList = true ∧ m.registers.has name = false := by
  induction registers generalizing m with
  | nil => simp [declareRegisters]
  | cons r rest ih =>
    cases r with
    | none =>
      constructor
      · rintro ⟨later, ⟨⟩⟩
      · rintro ⟨-, hall⟩
        obtain ⟨name, ⟨⟩, -⟩ := hall none List.mem_cons_self
    | some name =>
      have hstep : (∃ later, declareRegisters (some name :: rest) m = .ok later) ↔
          (Text.isName name.toList = true ∧ m.registers.has name = false) ∧
            ∃ later, declareRegisters rest { m with registers := m.registers.put name .empty } =
              .ok later := by
        rw [declareRegisters]
        cases hinsert : m.insertRegister name with
        | ok next =>
          obtain ⟨-, hname, hnew, rfl⟩ := Machine.insertRegister_eq_ok_iff.mp hinsert
          simp [hname, hnew]
        | error fault =>
          constructor
          · rintro ⟨later, ⟨⟩⟩
          · rintro ⟨⟨hname, hnew⟩, -⟩
            rw [Machine.insertRegister_eq_ok_iff.mpr ⟨hthawed, hname, hnew, rfl⟩] at hinsert
            cases hinsert
      rw [hstep, @ih { m with registers := m.registers.put name .empty } hthawed, List.nodup_cons,
        List.forall_mem_cons]
      constructor
      · rintro ⟨hfirst, hnodup, hall⟩
        refine ⟨⟨?_, hnodup⟩, ⟨name, rfl, hfirst⟩, ?_⟩
        · intro hmem
          obtain ⟨other, ⟨⟩, -, hnew⟩ := hall _ hmem
          exact (Table.has_put_eq_false_iff.mp hnew).1 rfl
        · intro r hr
          obtain ⟨other, rfl, hother, hnew⟩ := hall r hr
          exact ⟨other, rfl, hother, (Table.has_put_eq_false_iff.mp hnew).2⟩
      · rintro ⟨⟨hnotmem, hnodup⟩, ⟨first, ⟨⟩, hfirst⟩, hall⟩
        refine ⟨hfirst, hnodup, ?_⟩
        intro r hr
        obtain ⟨other, rfl, hother, hnew⟩ := hall r hr
        have hne : other ≠ name := by
          rintro rfl
          exact hnotmem hr
        exact ⟨other, rfl, hother, Table.has_put_eq_false_iff.mpr ⟨hne, hnew⟩⟩

theorem exists_declared_iff {registers : List (Option String)} :
    (∃ m, declareRegisters registers {} = .ok m) ↔ Declarable registers := by
  rw [exists_declareRegisters_iff rfl, Declarable]
  simp [Table.has, Table.get?]

/-- A command with declarable registers interprets its source on a machine that has them. -/
theorem exists_fresh (h : Declarable o.registers) :
    ∃ (names : List String) (m : Machine), o.registers = names.map some ∧ m.Fresh ∧ ∀ fuel source,
      interpret fuel source names Instruction.standard = m.interpret fuel source := by
  have hnames : o.registers ∈ Set.range (List.map some) := by
    rw [Set.range_list_map]
    intro r hr
    obtain ⟨name, rfl, -⟩ := h.2 r hr
    exact ⟨name, rfl⟩
  obtain ⟨names, hnames⟩ := hnames
  obtain ⟨m, hm⟩ := exists_declared_iff.mpr h
  rw [← hnames, declareRegisters_some] at hm
  rcases hdeclared : ({} : Machine).insertRegisters names with ⟨declared, fault | ⟨⟩⟩
  · rw [hdeclared] at hm
    cases hm
  · refine ⟨names, _, hnames.symm, Machine.fresh_standard declared.registers, fun fuel source => ?_⟩
    rw [interpret, hdeclared]
    simp only [(insertInstructions_declared hdeclared).2]

/-! ## Endings -/

section Endings

variable {names : List String} {fuel : Nat}

theorem execute_of_answer {answer : Machine × Except Fault Unit} (hreads : o.Reads open? source)
    (hnames : o.registers = names.map some)
    (hanswer : interpret fuel source names Instruction.standard = some answer) :
    ∃ transcript, o.execute open? fuel = some ⟨transcript, .ofAnswer answer⟩ := by
  have hrel := rel_interpret_carryOut hnames fuel source
  rw [hanswer] at hrel
  obtain ⟨⟨transcript, ending⟩, houtcome, hagrees⟩ := Machine.exists_of_rel_some hrel
  cases hagrees.ending
  exact ⟨transcript, (execute_of_reads hreads fuel).trans houtcome⟩

theorem execute_of_refused {number : Nat} {word : List Char} {fault : Fault}
    (hreads : o.Reads open? source) (hdeclarable : Declarable o.registers)
    (hfirst : firstRefused? source = some (number, word))
    (hfault : Argument.refusal? number word = some fault) (fuel : Nat) :
    ∃ transcript, o.execute open? fuel =
      some ⟨transcript, if fault.isRefusal then .exit 1 else .failed (.machine fault)⟩ := by
  obtain ⟨names, m, hnames, -, hinterpret⟩ := exists_fresh hdeclarable
  have hscan : (m.scan source).2 = .error fault :=
    Machine.scan_eq_error_iff.mpr ⟨number, word, hfirst, hfault⟩
  exact execute_of_answer hreads hnames
    ((hinterpret fuel source).trans (Machine.interpret_of_fault hscan fuel))

theorem execute_of_undeclarable (hreads : o.Reads open? source) (h : ¬ Declarable o.registers)
    (fuel : Nat) : ∃ transcript, o.execute open? fuel = some ⟨transcript, .exit 1⟩ := by
  rw [execute_of_reads hreads, Options.carryOut, Options.machine]
  cases hdeclare : declareRegisters o.registers {} with
  | error fault => exact ⟨_, rfl⟩
  | ok m => exact absurd (exists_declared_iff.mp ⟨m, hdeclare⟩) h

theorem execute_of_escapes {failure : Failure} (h : o.Escapes open? failure) (fuel : Nat) :
    ∃ transcript, o.execute open? fuel = some ⟨transcript, .failed failure⟩ := by
  cases h with
  | nullCharacter file unopened =>
    rw [Options.execute, Options.sourceText, file, unopened]
    exact ⟨_, rfl⟩
  | encoding file opened noText undecoded =>
    rw [Options.execute, Options.sourceText, file, opened]
    simp only [decodeSource, undecoded]
    exact ⟨_, rfl⟩
  | overlong reads declarable first overlong =>
    exact execute_of_refused reads declarable first
      (Argument.refusal?_eq_some_iff.mpr (.inr ⟨overlong, rfl⟩)) fuel

theorem execute_of_fails (h : o.Fails open? fuel) :
    ∃ transcript, o.execute open? fuel = some ⟨transcript, .exit 1⟩ := by
  cases h with
  | unopened file unopened =>
    rw [Options.execute, Options.sourceText, file, unopened]
    exact ⟨_, rfl⟩
  | undeclarable reads undeclarable => exact execute_of_undeclarable reads undeclarable fuel
  | quoted reads first quoted =>
    by_cases hdeclarable : Declarable o.registers
    · exact execute_of_refused reads hdeclarable first
        (Argument.refusal?_eq_some_iff.mpr (.inl ⟨quoted, rfl⟩)) fuel
    · exact execute_of_undeclarable reads hdeclarable fuel
  | @reported source names final reads named answered errors =>
    have hcount : final.errorCount ≠ 0 := by
      rw [(sound_interpret answered).errorCount]
      simpa using errors
    obtain ⟨transcript, hexecute⟩ := execute_of_answer reads named answered
    rw [Ending.ofAnswer, if_neg hcount] at hexecute
    exact ⟨transcript, hexecute⟩

/-- The source is there, and its interpretation goes on. -/
def Options.GoesOn (o : Options) (open? : String → Except OpenError ByteArray) (fuel : Nat) : Prop :=
  ∃ source names, o.Reads open? source ∧ o.registers = names.map some ∧
    interpret fuel source names Instruction.standard = none

theorem execute_of_goesOn (h : o.GoesOn open? fuel) : o.execute open? fuel = none := by
  obtain ⟨source, names, hreads, hnames, hanswer⟩ := h
  have hrel := rel_interpret_carryOut hnames fuel source
  rw [hanswer, ← execute_of_reads hreads] at hrel
  cases hexecute : o.execute open? fuel with
  | none => rfl
  | some outcome =>
    rw [hexecute] at hrel
    cases hrel

/-- A command that goes on has no outcome, and one that ends without success has a cause. -/
theorem ending_cases (o : Options) (open? : String → Except OpenError ByteArray) (fuel : Nat) :
    o.GoesOn open? fuel ∨ (∃ transcript, o.execute open? fuel = some ⟨transcript, .exit 0⟩) ∨
      o.Fails open? fuel ∨ ∃ failure, o.Escapes open? failure := by
  obtain ⟨source, hreads⟩ | hends := reads_or_ends o open? fuel
  · by_cases hdeclarable : Declarable o.registers
    · obtain ⟨names, m, hnames, hfresh, hinterpret⟩ := exists_fresh hdeclarable
      cases hanswer : interpret fuel source names Instruction.standard with
      | none => exact .inl ⟨source, names, hreads, hnames, hanswer⟩
      | some answer =>
        right
        obtain ⟨final, fault | ⟨⟩⟩ := answer
        · right
          have hscan := Machine.scan_of_interpret hfresh.isStandard
            ((hinterpret fuel source).symm.trans hanswer)
          obtain ⟨number, word, hfirst, hfault⟩ := Machine.scan_eq_error_iff.mp hscan
          obtain ⟨hquoted, -⟩ | ⟨hoverlong, -⟩ := Argument.refusal?_eq_some_iff.mp hfault
          · exact .inl (.quoted hreads hfirst hquoted)
          · exact .inr ⟨_, .overlong hreads hdeclarable hfirst hoverlong⟩
        · by_cases herrors : final.diagnostics = #[]
          · left
            obtain ⟨transcript, hexecute⟩ := execute_of_answer hreads hnames hanswer
            have hzero : Ending.ofAnswer (final, .ok ()) = .exit 0 := by
              rw [Ending.ofAnswer_eq_exit_zero_iff, (sound_interpret hanswer).errorCount, herrors]
              exact ⟨rfl, rfl⟩
            exact ⟨transcript, hzero ▸ hexecute⟩
          · exact .inr (.inl (.reported hreads hnames hanswer herrors))
    · exact .inr (.inr (.inl (.undeclarable hreads hdeclarable)))
  · exact .inr (.inr hends)

end Endings

/-- A command that is understood has no outcome only while its program goes on. It fails for a file name
that no file can have, for bytes that are no text and for a run of too many digits; it ends with 1 for
each of the other causes; and it ends with 0 if there is no cause for anything else. -/
theorem run_endings {arguments : List String} (hparse : Options.parse arguments = .ok o)
    (open? : String → Except OpenError ByteArray) (fuel : Nat) :
    (run fuel open? arguments = none ↔ o.GoesOn open? fuel) ∧
    ∀ outcome, run fuel open? arguments = some outcome →
      (∀ failure, outcome.ending = .failed failure ↔ o.Escapes open? failure) ∧
      (outcome.ending = .exit 1 ↔ o.Fails open? fuel) ∧
      (outcome.ending = .exit 0 ↔
        ¬ o.Fails open? fuel ∧ ∀ failure, ¬ o.Escapes open? failure) := by
  rw [run_of_parse hparse]
  constructor
  · constructor
    · intro hnone
      obtain hgoesOn | ⟨transcript, hsome⟩ | hfails | ⟨failure, hescapes⟩ := ending_cases o open? fuel
      · exact hgoesOn
      · cases hnone.symm.trans hsome
      · obtain ⟨transcript, hsome⟩ := execute_of_fails hfails
        cases hnone.symm.trans hsome
      · obtain ⟨transcript, hsome⟩ := execute_of_escapes hescapes fuel
        cases hnone.symm.trans hsome
    · exact execute_of_goesOn
  · intro outcome hexecute
    have hescapes {failure : Failure} (h : o.Escapes open? failure) :
        outcome.ending = .failed failure := by
      obtain ⟨transcript, hfailed⟩ := execute_of_escapes h fuel
      cases hfailed.symm.trans hexecute
      rfl
    have hfails (h : o.Fails open? fuel) : outcome.ending = .exit 1 := by
      obtain ⟨transcript, hfailed⟩ := execute_of_fails h
      cases hfailed.symm.trans hexecute
      rfl
    -- A cause gives its ending, so an ending without its cause can only be another one.
    obtain hgoesOn | ⟨transcript, hzero⟩ | hcause | ⟨failure, hcause⟩ := ending_cases o open? fuel
    · rw [execute_of_goesOn hgoesOn] at hexecute
      cases hexecute
    · cases hzero.symm.trans hexecute
      have hno : ¬ o.Fails open? fuel := fun h => by cases hfails h
      have hnone (failure : Failure) : ¬ o.Escapes open? failure := fun h => by cases hescapes h
      simp [hno, hnone]
    · have hnone (failure : Failure) : ¬ o.Escapes open? failure := fun h => by
        cases (hfails hcause).symm.trans (hescapes h)
      simp [hfails hcause, hcause, hnone]
    · have hno : ¬ o.Fails open? fuel := fun h => by cases (hfails h).symm.trans (hescapes hcause)
      refine ⟨fun other => ⟨?_, hescapes⟩, ?_, ?_⟩
      · intro hother
        cases (hescapes hcause).symm.trans hother
        exact hcause
      · simp [hescapes hcause, hno]
      · simp only [hescapes hcause, reduceCtorEq, false_iff, not_and, not_forall, not_not]
        exact fun _ => ⟨failure, hcause⟩

/-- A line that ends in two characters, and a label where a number is needed. -/
def adding : String :=
  "SET [a] x\r\nADD [a] 1"

theorem run_endings_adding :
    Options.parse ["-ra", "adding.asm"] = .ok ⟨"adding.asm", [some "a"], false, false, false, false⟩ ∧
    ∃ outcome, run 20 (fun _ => .ok adding.toUTF8) ["-ra", "adding.asm"] = some outcome ∧
      outcome.ending = .exit 1 ∧
      Options.Fails ⟨"adding.asm", [some "a"], false, false, false, false⟩
        (fun _ => .ok adding.toUTF8) 20 := by
  have hparse : Options.parse ["-ra", "adding.asm"] =
      .ok ⟨"adding.asm", [some "a"], false, false, false, false⟩ := by
    decide +kernel
  have hrun : (run 20 (fun _ => .ok adding.toUTF8) ["-ra", "adding.asm"]).map Outcome.ending =
      some (.exit 1) := by
    decide +kernel
  obtain ⟨outcome, houtcome, hending⟩ := Option.map_eq_some_iff.mp hrun
  obtain ⟨-, hfails, -⟩ := (run_endings hparse _ 20).2 outcome houtcome
  exact ⟨hparse, outcome, houtcome, hending, hfails.mp hending⟩

/-- A byte that starts no character, and one digit too many: neither command has an exit code. -/
theorem run_without_exit_code :
    run 20 (fun _ => .ok ⟨#[0xff]⟩) ["p.asm"] =
      some ⟨{}, .failed (.encoding ⟨0, 1, 0xff, .startByte⟩)⟩ ∧
    ∃ transcript, run 20 (fun _ => .error .notFound)
        ["--source", "--", String.ofList ("PRINT".toList ++ ' ' :: Machine.ones 4301)] =
      some ⟨transcript, .failed (.machine (.literal (.numeral (.tooManyDigits 4301))))⟩ := by
  constructor
  · decide +kernel
  · generalize hsource : String.ofList ("PRINT".toList ++ ' ' :: Machine.ones 4301) = source
    have hparse : Options.parse ["--source", "--", source] =
        .ok ⟨source, [], true, false, false, false⟩ :=
      parse_argumentsFor source List.not_mem_nil false false
    have hlength : (Machine.ones 4301).length = 4301 := List.length_replicate
    have hescapes : Options.Escapes ⟨source, [], true, false, false, false⟩
        (fun _ => .error .notFound) _ :=
      .overlong (.literal rfl) ⟨List.nodup_nil, nofun⟩ (hsource ▸ Machine.firstRefused?_ones)
        Machine.isOverlong_ones
    rw [hlength] at hescapes
    obtain ⟨transcript, hexecute⟩ := execute_of_escapes hescapes 20
    exact ⟨transcript, (run_of_parse hparse 20 _).trans hexecute⟩

end CommandLine

end LineAssembly
