import LineAssembly.CommandLine.Program
import LineAssembly.Proofs.Machine.History
import LineAssembly.Proofs.Machine.Journal
import LineAssembly.Proofs.Source.Refusals

/-! # The command line and the interpreter

The program on the command line declares registers, scans, lists, runs and dumps on its own, and decides
for itself whether to run. It still does what interpreting the source does: it ends as the answer says,
and writes what the interpreting machine tells its audiences. A listing stands between the messages of the
scan and what the run tells, and a dump behind all of it.
-/

set_option autoImplicit false

namespace LineAssembly

/-! ## Setting up a machine -/

/-- A fault that is told to the user in place of a program's answer. -/
def Fault.isRefusal : Fault → Bool
  | .registerName _ | .registerUnnamed | .registerExists _ | .quotedArgument .. => true
  | _ => false

namespace Machine

theorem insertInstructions_registers (m : Machine) (registers : Table Value)
    (is : List Instruction) :
    { m with registers := registers }.insertInstructions is =
      ({ (m.insertInstructions is).1 with registers := registers }, (m.insertInstructions is).2) := by
  induction is generalizing m with
  | nil => rfl
  | cons i rest ih =>
    have hinsert : { m with registers := registers }.insertInstruction i =
        (m.insertInstruction i).map fun m => { m with registers := registers } := by
      simp only [insertInstruction]
      split
      · rfl
      · split <;> rfl
    rw [insertInstructions, insertInstructions, hinsert]
    cases m.insertInstruction i with
    | error fault => rfl
    | ok later => exact ih later

theorem exists_insertRegisters (m : Machine) (names : List String) :
    ∃ registers, (m.insertRegisters names).1 = { m with registers := registers } := by
  induction names generalizing m with
  | nil => exact ⟨m.registers, rfl⟩
  | cons name rest ih =>
    rw [insertRegisters, insertRegister]
    split_ifs
    · exact ⟨m.registers, rfl⟩
    · exact ⟨m.registers, rfl⟩
    · exact ⟨m.registers, rfl⟩
    · exact ih _

theorem isRefusal_of_insertRegisters {m : Machine} (hthawed : m.frozen = false)
    {names : List String} {fault : Fault} (h : (m.insertRegisters names).2 = .error fault) :
    fault.isRefusal = true := by
  induction names generalizing m with
  | nil => cases h
  | cons name rest ih =>
    rw [insertRegisters, insertRegister] at h
    split_ifs at h with hfrozen
    · rw [hthawed] at hfrozen
      cases hfrozen
    · cases h
      rfl
    · cases h
      rfl
    · exact @ih { m with registers := m.registers.put name .empty } hthawed h

/-- Declared registers, and then the standard instructions. -/
theorem insertInstructions_declared {names : List String} {m : Machine}
    {result : Except Fault Unit} (h : ({} : Machine).insertRegisters names = (m, result)) :
    m.told = [] ∧ m.insertInstructions Instruction.standard =
      ({ standard with registers := m.registers }, .ok ()) := by
  obtain ⟨registers, hregisters⟩ := ({} : Machine).exists_insertRegisters names
  rw [h] at hregisters
  subst hregisters
  exact ⟨rfl, insertInstructions_registers {} registers Instruction.standard⟩

/-- A machine with the standard instructions that has done nothing yet. -/
structure Fresh (m : Machine) : Prop where
  isStandard : m.IsStandard
  errorCount : m.errorCount = 0
  journal : m.journal = #[]

theorem fresh_standard (registers : Table Value) : Fresh { standard with registers := registers } :=
  ⟨fun _ => rfl, rfl, rfl⟩

end Machine

/-- The messages of scanning a source on the standard instructions. -/
def scanMessages (source : String) : List String :=
  (Machine.standard.scan source).1.diagnostics.toList.map Diagnostic.message

namespace Machine.Fresh

variable {m : Machine} (h : m.Fresh) (source : String)

include h

theorem scan_eq :
    (m.scan source).2 = (standard.scan source).2 ∧
      (m.scan source).1.labels = (standard.scan source).1.labels := by
  obtain ⟨hresult, hlabels, -⟩ :=
    scan_congr ((fresh_standard []).isStandard.has_eq_has h.isStandard) source
  exact ⟨hresult, hlabels⟩

theorem told_scan : (m.scan source).1.told = scanMessages source := by
  have htold : m.told = [] := by rw [told, h.journal]; rfl
  have hstandard : (standard.scan source).1.diagnostics.toList =
      (Reading.ofSource standard.instructions.has source).errors := diagnostics_scan _ _
  rw [Machine.told_scan, htold, h.isStandard.has_eq, scanMessages, hstandard, List.nil_append]

theorem errorCount_scan_iff :
    (m.scan source).1.errorCount = 0 ↔ (m.scan source).1.diagnostics = m.diagnostics := by
  have hcount := m.errorCount_lt_scan_iff source
  rw [h.errorCount] at hcount
  constructor
  · intro hzero
    by_contra hchanged
    have hpos := hcount.mpr hchanged
    omega
  · intro hsame
    have hpos : ¬ 0 < (m.scan source).1.errorCount := fun hpos => hcount.mp hpos hsame
    omega

end Machine.Fresh

namespace Listing

theorem join_append (lines others : List String) :
    join (lines ++ others) = join lines ++ join others := by
  simp [join]

end Listing

namespace CommandLine

/-! ## What is written -/

namespace Transcript

@[simp] theorem mk_append_mk (a b c d : String) :
    (⟨a, b⟩ ++ ⟨c, d⟩ : Transcript) = ⟨a ++ c, b ++ d⟩ :=
  rfl

@[simp] theorem append_empty (t : Transcript) : t ++ {} = t := by
  obtain ⟨stdout, stderr⟩ := t
  rw [mk_append_mk, String.append_empty, String.append_empty]

theorem append_assoc (a b c : Transcript) : a ++ b ++ c = a ++ (b ++ c) := by
  obtain ⟨aout, aerr⟩ := a
  obtain ⟨bout, berr⟩ := b
  obtain ⟨cout, cerr⟩ := c
  simp only [mk_append_mk, String.append_assoc]

/-- Without debug records the events write their lines, and nothing to the standard error. -/
theorem ofEvents_false (events : List Event) :
    ofEvents false events = ⟨Listing.join (events.filterMap Event.line?), ""⟩ := by
  have hfold (stdout : String) : events.foldl (fun t e => t ++ ofEvent false e) ⟨stdout, ""⟩ =
      ⟨stdout ++ Listing.join (events.filterMap Event.line?), ""⟩ := by
    induction events generalizing stdout with
    | nil => simp [Listing.join]
    | cons e rest ih =>
      have hfirst : (⟨stdout, ""⟩ ++ ofEvent false e : Transcript) =
          ⟨stdout ++ Listing.join e.line?.toList, ""⟩ := by
        cases hline : e.line? <;> simp [ofEvent, hline, Listing.join]
      rw [List.foldl_cons, hfirst, ih, String.append_assoc, ← Listing.join_append]
      cases hline : e.line? <;> simp [hline]
  rw [ofEvents, hfold, String.empty_append]

end Transcript

open Machine (standard insertInstructions_declared)

theorem Options.writtenSince_of_quiet {o : Options} (h : o.verbose = false) (before : Nat)
    (m : Machine) : o.writtenSince before m =
      ⟨Listing.join ((m.journal.toList.drop before).filterMap Event.line?), ""⟩ := by
  rw [writtenSince, h, Transcript.ofEvents_false]

theorem Options.writtenSince_zero {o : Options} (h : o.verbose = false) (m : Machine) :
    o.writtenSince 0 m = ⟨Listing.join m.told, ""⟩ := by
  rw [writtenSince_of_quiet h]
  rfl

/-- The state lines of a dump come behind what the journal already holds. -/
theorem Options.writtenSince_dump {o : Options} (h : o.verbose = false) {before : Nat} {m : Machine}
    (hbefore : before ≤ m.journal.size) :
    o.writtenSince before m.dump = o.writtenSince before m ++ ⟨Listing.join m.stateLines, ""⟩ := by
  have hlines : (m.stateLines.map Event.dumped).filterMap Event.line? = m.stateLines := by
    rw [List.filterMap_map]
    exact List.filterMap_some
  have hjournal : m.dump.journal.toList.drop before =
      m.journal.toList.drop before ++ m.stateLines.map Event.dumped := by
    rw [Machine.dump_eq, Array.toList_append, List.drop_append_of_le_length]
    rwa [Array.length_toList]
  rw [writtenSince_of_quiet h, writtenSince_of_quiet h, hjournal, List.filterMap_append, hlines,
    Listing.join_append, Transcript.mk_append_mk, String.empty_append]

/-! ## The program and its answer -/

/-- How a command ends whose program is answered so. -/
def Ending.ofAnswer : Machine × Except Fault Unit → Ending
  | (_, .error fault) => if fault.isRefusal then .exit 1 else .failed (.machine fault)
  | (m, .ok ()) => .exit (if m.errorCount = 0 then 0 else 1)

/-- What a command without debug records writes whose program is answered so. -/
inductive Written (dump listing : Bool) (source : String) :
    Machine × Except Fault Unit → Transcript → Prop where
  | faulted (m : Machine) (fault : Fault) :
    Written dump listing source (m, .error fault)
      ⟨Listing.join m.told, if fault.isRefusal then s!"error: {fault.message}\n" else ""⟩
  | returned {m : Machine} {ts : List Token} {text : String} {ran : List String}
    (scanned : (standard.scan source).2 = .ok ts)
    (listed : Listing.text ts (Listing.ofTable (standard.scan source).1.labels) = .ok text)
    (told : m.told = scanMessages source ++ ran) :
    Written dump listing source (m, .ok ())
      ⟨Listing.join (scanMessages source) ++ (if listing then text else "") ++ Listing.join ran ++
        (if dump then Listing.join m.stateLines else ""), ""⟩

structure Agrees (o : Options) (source : String) (answer : Machine × Except Fault Unit)
    (outcome : Outcome) : Prop where
  ending : outcome.ending = .ofAnswer answer
  written : o.verbose = false → Written o.dump o.listing source answer outcome.transcript

/-- What is left to do once the source is there. -/
def Options.carryOut (o : Options) (fuel : Nat) (source : String) : Option Outcome :=
  match o.machine with
  | .error outcome => some outcome
  | .ok m =>
    match o.prepare m source with
    | .error outcome => some outcome
    | .ok ready => ready.outcome fuel

/-- What is left to do once the options are there. -/
def Options.execute (o : Options) (open? : String → Except OpenError ByteArray) (fuel : Nat) :
    Option Outcome :=
  match o.sourceText open? with
  | .error outcome => some outcome
  | .ok source => o.carryOut fuel source

section Prepared

variable {o : Options} {m : Machine} {source : String} {ts : List Token}

/-- A scan has no other fault that is a refusal than a quoted argument. -/
theorem readingFailed_of_scan {fault : Fault} (h : (m.scan source).2 = .error fault)
    (written : Transcript) : readingFailed written fault =
      ⟨written ++ .ofStderr (if fault.isRefusal then s!"error: {fault.message}\n" else ""),
        if fault.isRefusal then .exit 1 else .failed (.machine fault)⟩ := by
  obtain ⟨number, word, -, hrefusal⟩ := Machine.scan_eq_error_iff.mp h
  obtain ⟨-, rfl⟩ | ⟨-, rfl⟩ := Argument.refusal?_eq_some_iff.mp hrefusal
  · rfl
  · obtain ⟨stdout, stderr⟩ := written
    simp [readingFailed, Fault.isRefusal, Transcript.ofStderr]

theorem prepare_of_fault {fault : Fault} (h : (m.scan source).2 = .error fault) :
    o.prepare m source = .error (readingFailed (o.writtenSince 0 (m.scan source).1) fault) := by
  rw [Options.prepare]
  generalize m.scan source = result at h ⊢
  obtain ⟨scanned, answer⟩ := result
  cases h
  rfl

/-- The program between its scan and its run. -/
def Options.ready (o : Options) (m : Machine) (source text : String) (ts : List Token) : Ready :=
  ⟨o, o.writtenSince 0 (m.scan source).1 ++ (if o.listing then .ofStdout text else {}),
    (m.scan source).1, ts⟩

theorem prepare_of_ok {text : String} (h : (m.scan source).2 = .ok ts)
    (htext : Listing.text ts (Listing.ofTable (m.scan source).1.labels) = .ok text) :
    o.prepare m source = .ok (o.ready m source text ts) := by
  rw [Options.prepare, Options.ready]
  generalize m.scan source = result at h htext ⊢
  obtain ⟨scanned, answer⟩ := result
  cases h
  cases hlisting : o.listing with
  | true => simp [htext]
  | false => simp

theorem ending_finish (r : Ready) (final : Machine) :
    (r.finish final (.ok ())).ending = .exit (if final.errorCount = 0 then 0 else 1) := by
  rw [Ready.finish]
  split
  · rw [Machine.dump_eq]
  · rfl

theorem transcript_finish {r : Ready} (hquiet : r.options.verbose = false) {final : Machine}
    (hjournal : r.machine.journal.size ≤ final.journal.size) :
    (r.finish final (.ok ())).transcript =
      r.written ++ r.options.writtenSince r.machine.journal.size final ++
        (if r.options.dump then ⟨Listing.join final.stateLines, ""⟩ else {}) := by
  rw [Ready.finish]
  cases r.options.dump with
  | true =>
    rw [if_pos rfl, if_pos rfl, Options.writtenSince_dump hquiet hjournal, Transcript.append_assoc]
  | false => rw [if_neg Bool.false_ne_true, if_neg Bool.false_ne_true, Transcript.append_empty]

/-- The machine of the answer may have a debug record more than the machine of the command. -/
theorem agrees_finish (hm : m.Fresh) {text : String} (hscan : (m.scan source).2 = .ok ts)
    (htext : Listing.text ts (Listing.ofTable (m.scan source).1.labels) = .ok text)
    {final answered : Machine}
    (hjournal : (m.scan source).1.journal.toList <+: final.journal.toList)
    (hcount : answered.errorCount = final.errorCount) (htold : answered.told = final.told)
    (hstate : answered.stateLines = final.stateLines) :
    Agrees o source (answered, .ok ()) ((o.ready m source text ts).finish final (.ok ())) := by
  constructor
  · rw [ending_finish, Ending.ofAnswer, hcount]
  · intro hquiet
    have hsize : (m.scan source).1.journal.size ≤ final.journal.size := by
      simpa using hjournal.length_le
    obtain ⟨hresult, hlabels⟩ := hm.scan_eq source
    have hadded : answered.told = scanMessages source ++
        (final.journal.toList.drop (m.scan source).1.journal.size).filterMap Event.line? := by
      rw [htold, Machine.told_of_journal hjournal, hm.told_scan]
    have hwritten : Written o.dump o.listing source (answered, .ok ()) _ :=
      .returned (hresult ▸ hscan) (hlabels ▸ htext) hadded
    rw [hstate] at hwritten
    rw [transcript_finish (r := o.ready m source text ts) hquiet hsize, Options.ready,
      Options.writtenSince_zero hquiet, hm.told_scan, Options.writtenSince_of_quiet hquiet]
    cases hlisting : o.listing <;> cases hdump : o.dump <;>
      simpa [Transcript.ofStdout, hlisting, hdump] using hwritten

/-- The gate of the command counts all errors, the gate of the interpreter those of the scan: on a fresh
machine they are the same. -/
theorem rel_interpret_prepare (hm : m.Fresh) (fuel : Nat) :
    Option.Rel (Agrees o source) (m.interpret fuel source)
      (match o.prepare m source with
        | .error outcome => some outcome
        | .ok ready => ready.outcome fuel) := by
  cases hscan : (m.scan source).2 with
  | error fault =>
    rw [Machine.interpret_of_fault hscan, prepare_of_fault hscan]
    refine .some ⟨?_, ?_⟩
    · rw [readingFailed_of_scan hscan]
      rfl
    · intro hquiet
      rw [readingFailed_of_scan hscan, Options.writtenSince_zero hquiet, Transcript.ofStderr,
        Transcript.mk_append_mk, String.append_empty, String.empty_append]
      exact .faulted _ fault
  | ok ts =>
    obtain ⟨text, htext⟩ := Machine.exists_text_scan hscan
    rw [prepare_of_ok hscan htext]
    have houtcome : (o.ready m source text ts).outcome fuel =
        if (m.scan source).1.errorCount = 0 then
          ((m.scan source).1.run fuel ts).map fun ended =>
            (o.ready m source text ts).finish ended.1 ended.2
        else some ((o.ready m source text ts).finish (m.scan source).1 (.ok ())) := rfl
    simp only [houtcome]
    split_ifs with hzero
    · rw [Machine.interpret_of_quiet hscan ((hm.errorCount_scan_iff source).mp hzero)]
      cases hrun : (m.scan source).1.run fuel ts with
      | none => exact .none
      | some answer =>
        obtain ⟨final, result⟩ := answer
        cases Machine.result_of_run (Machine.isStandard_scan hm.isStandard source) hrun
        exact .some (agrees_finish hm hscan htext (Machine.journal_run hrun) rfl rfl rfl)
    · obtain ⟨n, hinterpret⟩ := Machine.interpret_of_messages hscan
        (mt (hm.errorCount_scan_iff source).mpr hzero) fuel
      rw [hinterpret]
      exact .some (agrees_finish hm hscan htext List.prefix_rfl rfl (Machine.told_trace _ _)
        (Machine.stateLines_trace _ _))

end Prepared

theorem declareRegisters_some (names : List String) (m : Machine) :
    declareRegisters (names.map some) m = match m.insertRegisters names with
      | (_, .error fault) => .error fault
      | (m, .ok ()) => .ok m := by
  induction names generalizing m with
  | nil => rfl
  | cons name rest ih =>
    rw [List.map_cons, declareRegisters, Machine.insertRegisters]
    cases m.insertRegister name with
    | error fault => rfl
    | ok later => exact ih later

theorem rel_interpret_carryOut {o : Options} {names : List String}
    (hnames : o.registers = names.map some) (fuel : Nat) (source : String) :
    Option.Rel (Agrees o source) (interpret fuel source names Instruction.standard)
      (o.carryOut fuel source) := by
  have hmachine : o.machine = match ({} : Machine).insertRegisters names with
      | (_, .error fault) => .error ⟨.ofStderr s!"error: {fault.message}\n", .exit 1⟩
      | (m, .ok ()) => .ok { standard with registers := m.registers } := by
    rw [Options.machine, hnames, declareRegisters_some]
    rcases hdeclared : ({} : Machine).insertRegisters names with ⟨m, fault | ⟨⟩⟩
    · rfl
    · simp only [(insertInstructions_declared hdeclared).2]
  rw [interpret, Options.carryOut, hmachine]
  rcases hdeclared : ({} : Machine).insertRegisters names with ⟨m, fault | ⟨⟩⟩
  · have hrefusal : fault.isRefusal = true :=
      Machine.isRefusal_of_insertRegisters rfl (congrArg Prod.snd hdeclared)
    refine .some ⟨?_, ?_⟩
    · rw [Ending.ofAnswer, if_pos hrefusal]
    · rintro -
      have hwritten : Written o.dump o.listing source (m, .error fault) _ := .faulted m fault
      rwa [(insertInstructions_declared hdeclared).1, if_pos hrefusal] at hwritten
  · simp only [(insertInstructions_declared hdeclared).2]
    exact rel_interpret_prepare (Machine.fresh_standard _) fuel

theorem run_of_parse {arguments : List String} {o : Options} (h : Options.parse arguments = .ok o)
    (fuel : Nat) (open? : String → Except OpenError ByteArray) :
    run fuel open? arguments = o.execute open? fuel := by
  rw [run, start, h, Options.execute]
  simp only [Options.carryOut]
  cases o.sourceText open? with
  | error outcome => rfl
  | ok source =>
    cases o.machine with
    | error outcome => rfl
    | ok m => rfl

/-! ## Handing over a source and names -/

/-- A command line for a source and the names of registers. -/
def argumentsFor (source : String) (names : List String) (dump listing : Bool) : List String :=
  names.map ("--register=" ++ ·) ++ (if dump then ["--dump"] else []) ++
    (if listing then ["--listing"] else []) ++ ["--source", "--", source]

theorem ofStrings_registers {rest : List String} {words : List Word}
    (h : Word.ofStrings rest = .ok words) (names : List String) :
    Word.ofStrings (names.map ("--register=" ++ ·) ++ rest) =
      .ok ((names.map fun name => Word.long .register (some name.toList)) ++ words) := by
  induction names with
  | nil => exact h
  | cons name names ih =>
    have hword : Word.ofChars ("--register=" ++ name).toList =
        .ok (.long .register (some name.toList)) := by
      rw [String.toList_append]
      rfl
    have hne : "--register=" ++ name ≠ "--" := by
      intro heq
      have hchars := congrArg String.toList heq
      rw [String.toList_append] at hchars
      cases hchars
    rw [List.map_cons, List.cons_append, Word.ofStrings, if_neg hne, hword, ih]
    rfl

theorem foldlM_registers {names : List String} (hnames : "--" ∉ names) (words : List Word)
    (registers : List (Option String)) :
    ((names.map fun name => Word.long .register (some name.toList)) ++ words).foldlM Draft.take
        { registers := registers } =
      words.foldlM Draft.take { registers := registers ++ names.map some } := by
  induction names generalizing registers with
  | nil => rw [List.map_nil, List.map_nil, List.nil_append, List.append_nil]
  | cons name names ih =>
    obtain ⟨hname, hrest⟩ := not_or.mp (mt List.mem_cons.mpr hnames)
    have htext : name.toList ≠ ['-', '-'] := by
      intro heq
      apply hname
      rw [← String.ofList_toList (s := name), heq]
    have htake : Draft.take { registers := registers } (.long .register (some name.toList)) =
        .ok { registers := registers ++ [some name] } := by
      simp only [Draft.take, Draft.takeWord, Cluster.ofLong, Cluster.register, if_neg htext,
        String.ofList_toList]
      rfl
    rw [List.map_cons, List.cons_append, List.foldlM_cons, htake]
    have hstep := ih hrest (registers ++ [some name])
    rw [List.append_assoc] at hstep
    exact hstep

theorem parse_argumentsFor (source : String) {names : List String} (hnames : "--" ∉ names)
    (dump listing : Bool) :
    Options.parse (argumentsFor source names dump listing) =
      .ok ⟨source, names.map some, true, dump, listing, false⟩ := by
  rw [argumentsFor, List.append_assoc, List.append_assoc]
  cases dump <;> cases listing
  all_goals
    rw [Options.parse, ofStrings_registers rfl]
    simp only
    rw [foldlM_registers hnames]
    rfl

theorem rel_imp {α β : Type} {R S : α → β → Prop} (himp : ∀ a b, R a b → S a b) {x : Option α}
    {y : Option β} (h : Option.Rel R x y) : Option.Rel S x y := by
  cases h with
  | none => exact .none
  | some h => exact .some (himp _ _ h)

theorem Ending.ofAnswer_eq_exit_zero_iff {answer : Machine × Except Fault Unit} :
    Ending.ofAnswer answer = .exit 0 ↔ answer.2 = .ok () ∧ answer.1.errorCount = 0 := by
  obtain ⟨m, fault | ⟨⟩⟩ := answer
  · cases hrefusal : fault.isRefusal <;> simp [ofAnswer, hrefusal]
  · simp [ofAnswer]

/-- A source and any names of registers but the separator can be handed over. However this is done, the
command ends with 0 if and only if the interpreter returns and has counted no error, and it writes what
the interpreting machine tells its audiences. The listing and the dump are additions: neither the answer
nor the ending depends on them. -/
theorem run_interprets (source : String) (names : List String) (dump listing : Bool) :
    ("--" ∉ names → ∃ arguments,
      Options.parse arguments = .ok ⟨source, names.map some, true, dump, listing, false⟩) ∧
    ∀ arguments, Options.parse arguments = .ok ⟨source, names.map some, true, dump, listing, false⟩ →
      ∀ open? fuel, Option.Rel
        (fun answer outcome =>
          (outcome.ending = .exit 0 ↔ answer.2 = .ok () ∧ answer.1.errorCount = 0) ∧
          outcome.ending = .ofAnswer answer ∧
          Written dump listing source answer outcome.transcript)
        (interpret fuel source names Instruction.standard) (run fuel open? arguments) := by
  constructor
  · intro hnames
    exact ⟨_, parse_argumentsFor source hnames dump listing⟩
  · intro arguments hparse open? fuel
    have hcarried : run fuel open? arguments =
        Options.carryOut ⟨source, names.map some, true, dump, listing, false⟩ fuel source :=
      run_of_parse hparse fuel open?
    rw [hcarried]
    refine rel_imp (fun answer outcome h => ?_) (rel_interpret_carryOut rfl fuel source)
    exact ⟨by rw [h.ending, Ending.ofAnswer_eq_exit_zero_iff], h.ending, h.written rfl⟩

/-- The second statement ends the run, behind the output of the first. -/
def failing : String :=
  "PRINT 1\nagain:\nADD [b] 1 ;; no such register"

def failingTokens : List Token :=
  [.instruction "PRINT", .value (.int 1), .statementEnd,
    .instruction "ADD", .register "b", .value (.int 1), .statementEnd]

theorem text_failing :
    Listing.text failingTokens (Listing.ofTable [("again", 3)]) =
      .ok (Listing.join ["PRINT 1", "again:", "ADD [b] 1"]) := by
  have hlines : Listing.lines failingTokens (Listing.ofTable [("again", 3)]) =
      .ok ["PRINT 1", "again:", "ADD [b] 1"] := by
    have hprint : Listing.statementLine ["PRINT", Listing.operandText (.value (.int 1))] = "PRINT 1" := by
      decide +kernel
    have hadd : Listing.statementLine ["ADD", Listing.operandText (.register "b"),
        Listing.operandText (.value (.int 1))] = "ADD [b] 1" := by
      decide +kernel
    have hagain : Listing.labelLine "again" = "again:" := by decide +kernel
    simp [Listing.lines, failingTokens, Listing.tokenLines, Listing.labelLines, Listing.labelsAt,
      Listing.sortNames, Listing.ofTable, Except.map, Listing.leftoverLines, hprint, hadd, hagain]
  rw [Listing.text, hlines]
  rfl

theorem run_interprets_failing :
    Options.parse ["-ra", "--dump", "--source", "--list", failing] =
      .ok ⟨failing, [some "a"], true, true, true, false⟩ ∧
    ∃ final outcome, interpret 20 failing ["a"] Instruction.standard = some (final, .ok ()) ∧
      run 20 (fun _ => .error .notFound) ["-ra", "--dump", "--source", "--list", failing] =
        some outcome ∧
      outcome.ending = .exit 1 ∧
      outcome.transcript = ⟨Listing.join (["PRINT 1", "again:", "ADD [b] 1", "1",
        "token 4: register [b] is not defined"] ++ final.stateLines), ""⟩ := by
  have hparse : Options.parse ["-ra", "--dump", "--source", "--list", failing] =
      .ok ⟨failing, [some "a"], true, true, true, false⟩ := by
    decide +kernel
  have hinterpret : (interpret 20 failing ["a"] Instruction.standard).map
      (fun answer => (answer.1.told, answer.1.errorCount, answer.2)) =
        some (["1", "token 4: register [b] is not defined"], 1, .ok ()) := by
    decide +kernel
  have hscan : (standard.scan failing).2 = .ok failingTokens := by decide +kernel
  have hlabels : (standard.scan failing).1.labels = [("again", 3)] := by decide +kernel
  have hmessages : scanMessages failing = [] := by decide +kernel
  obtain ⟨⟨final, result⟩, hfinal, hstate⟩ := Option.map_eq_some_iff.mp hinterpret
  simp only [Prod.mk.injEq] at hstate
  obtain ⟨htold, hcount, rfl⟩ := hstate
  have hrel := (run_interprets failing ["a"] true true).2 _ hparse (fun _ => .error .notFound) 20
  rw [hfinal] at hrel
  obtain ⟨outcome, houtcome, -, hending, hwritten⟩ := Machine.exists_of_rel_some hrel
  refine ⟨hparse, final, outcome, hfinal, houtcome, ?_, ?_⟩
  · rw [hending, Ending.ofAnswer, hcount]
    rfl
  · generalize outcome.transcript = transcript at hwritten
    cases hwritten with
    | returned scanned listed told =>
      cases hscan.symm.trans scanned
      rw [hlabels] at listed
      cases text_failing.symm.trans listed
      rw [hmessages, List.nil_append, htold] at told
      subst told
      rw [hmessages, Listing.join_append]
      rfl

end CommandLine

end LineAssembly
