import LineAssembly.Proofs.Machine.Choice
import LineAssembly.Proofs.Machine.FailStop

/-! # Programs do not see earlier programs

Interpreting a source starts from the registers and from the halted mark alone. Labels, cursor, jump mark
and records that earlier programs have left make no difference: of two machines that differ in these, one
does what the other does, and adds the same messages and the same output. A scan depends on still less,
and nothing that a program can see is changed by it.
-/

set_option autoImplicit false

namespace LineAssembly

namespace Machine

/-- Two machines have gone the same way, from wherever they were: they agree, and the same was added to
the records of both. -/
structure Parallel (a b later other : Machine) : Prop where
  registers : other.registers = later.registers
  labels : other.labels = later.labels
  halted : other.halted = later.halted
  diagnostics : ∃ added, later.diagnostics.toList = a.diagnostics.toList ++ added ∧
    other.diagnostics.toList = b.diagnostics.toList ++ added
  output : ∃ added, later.output.toList = a.output.toList ++ added ∧
    other.output.toList = b.output.toList ++ added

namespace Parallel

variable {a b later other : Machine} (h : Parallel a b later other)

include h

theorem report (d : Diagnostic) (halting : Bool) :
    Parallel a b (later.report d halting) (other.report d halting) := by
  obtain ⟨added, hlater, hother⟩ := h.diagnostics
  have hadded : ∃ added, (later.diagnostics.push d).toList = a.diagnostics.toList ++ added ∧
      (other.diagnostics.push d).toList = b.diagnostics.toList ++ added :=
    ⟨added ++ [d], by simp [hlater], by simp [hother]⟩
  cases halting with
  | true => exact ⟨h.registers, h.labels, rfl, hadded, h.output⟩
  | false => exact ⟨h.registers, h.labels, h.halted, hadded, h.output⟩

theorem emit (text : String) : Parallel a b (later.emit text) (other.emit text) := by
  obtain ⟨added, hlater, hother⟩ := h.output
  have hadded : ∃ added, (later.output.push text).toList = a.output.toList ++ added ∧
      (other.output.push text).toList = b.output.toList ++ added :=
    ⟨added ++ [text], by simp [hlater], by simp [hother]⟩
  exact ⟨h.registers, h.labels, h.halted, h.diagnostics, hadded⟩

theorem apply (e : Effect) : Parallel a b (e.apply later) (e.apply other) := by
  cases e with
  | pass => exact h
  | store name v =>
    have hput : other.registers.put name v = later.registers.put name v := by rw [h.registers]
    exact ⟨hput, h.labels, h.halted, h.diagnostics, h.output⟩
  | emit text => exact h.emit text
  | goto index => exact ⟨h.registers, h.labels, h.halted, h.diagnostics, h.output⟩
  | stop => exact ⟨h.registers, h.labels, rfl, h.diagnostics, h.output⟩
  | fail d => exact h.report d true

/-- Where the cursors are does not matter. -/
theorem placed (c c' : Nat) (jumped jumped' : Bool) :
    Parallel a b { later with cursor := c, jumped := jumped }
      { other with cursor := c', jumped := jumped' } :=
  ⟨h.registers, h.labels, h.halted, h.diagnostics, h.output⟩

theorem trace (t u : Trace) : Parallel a b (later.trace t) (other.trace u) :=
  ⟨h.registers, h.labels, h.halted, h.diagnostics, h.output⟩

theorem start : Parallel a b later.start.machine other.start.machine :=
  ⟨h.registers, h.labels, h.halted, h.diagnostics, h.output⟩

theorem continued : Parallel a b (Run.continued later).machine (Run.continued other).machine := by
  rw [Run.continued, Run.continued]
  split <;> split <;> exact ⟨h.registers, h.labels, h.halted, h.diagnostics, h.output⟩

end Parallel

end Machine

namespace Run

variable {program : Array Token} {a b : Machine} {r s : Run}

/-- Two runs of one program at the same token. -/
structure Level (a b : Machine) (r s : Run) : Prop where
  machine : a.Parallel b r.machine s.machine
  cursor : s.machine.cursor = r.machine.cursor
  pending : s.pending = r.pending
  operands : s.operands = r.operands

theorem Level.after (h : Level a b r s) (choice : Choice) :
    Level a b (r.after choice) (s.after choice) := by
  have hready : a.Parallel b r.ready s.ready := h.machine.placed _ _ _ _
  have hnext : s.machine.cursor + 1 = r.machine.cursor + 1 := by rw [h.cursor]
  have herror (error : TokenError) (halting : Bool) :
      a.Parallel b (r.ready.tokenError error halting) (s.ready.tokenError error halting) := by
    have hcursor : s.ready.cursor = r.ready.cursor := h.cursor
    rw [Machine.tokenError, Machine.tokenError, hcursor]
    exact hready.report _ halting
  cases choice with
  | refuse error => exact ⟨herror error true, h.cursor, h.pending, h.operands⟩
  | warn name => exact ⟨(herror (.strayRegister name) false).placed _ _ _ _, hnext, h.pending, h.operands⟩
  | skip => exact ⟨hready.placed _ _ _ _, hnext, h.pending, h.operands⟩
  | start i => exact ⟨hready.placed _ _ _ _, hnext, rfl, rfl⟩
  | collect v =>
    exact ⟨hready.placed _ _ _ _, hnext, h.pending, congrArg (· ++ [v]) h.operands⟩
  | finish i =>
    rw [Run.after, Run.after, h.machine.registers, h.machine.labels, h.operands]
    generalize i.effect r.machine.registers r.machine.labels r.operands = e
    refine ⟨(hready.apply e).continued, ?_, rfl, rfl⟩
    cases e with
    | goto index => rfl
    | pass | store | emit | stop | fail => exact hnext

structure Abreast (a b : Machine) (r s : Run) : Prop extends Level a b r s where
  left : r.Standard
  right : s.Standard

namespace Abreast

theorem choose_eq (h : Abreast a b r s) (token : Token) : s.choose token = r.choose token := by
  have hinstructions (name : String) :
      s.machine.instructions.get? name = r.machine.instructions.get? name :=
    (h.right.machine name).trans (h.left.machine name).symm
  cases token <;> simp only [choose, h.pending, h.machine.registers, hinstructions]

theorem step (h : Abreast a b r s) :
    (∃ r' s', r.step program = .next r' ∧ s.step program = .next s' ∧ Abreast a b r' s') ∨
      r.step program = .ended r.machine (.ok ()) ∧ s.step program = .ended s.machine (.ok ()) := by
  cases hhalted : r.machine.halted with
  | true =>
    exact .inr ⟨step_of_halted hhalted, step_of_halted (h.machine.halted.trans hhalted)⟩
  | false =>
    cases htoken : program[r.machine.cursor]? with
    | none =>
      right
      rw [Run.step, Run.step, h.cursor, htoken]
      exact ⟨rfl, rfl⟩
    | some token =>
      have hleft : r.step program = .next (r.after (r.choose token)) :=
        (step_of_running hhalted htoken).trans (take_eq_after h.left.pending token)
      have hright : s.step program = .next (s.after (r.choose token)) := by
        rw [step_of_running (h.machine.halted.trans hhalted) (h.cursor ▸ htoken),
          take_eq_after h.right.pending, h.choose_eq]
      exact .inl ⟨_, _, hleft, hright, h.toLevel.after _, (move_of_step h.left hleft).1,
        (move_of_step h.right hright).1⟩

end Abreast

end Run

namespace Machine

/-- Two answers with the same result, by machines that have gone the same way. -/
structure SameAnswer (a b : Machine) (answer other : Machine × Except Fault Unit) : Prop where
  machine : a.Parallel b answer.1 other.1
  result : other.2 = answer.2

variable {a b m : Machine}

theorem rel_upTo {program : Array Token} {r s : Run} (h : Run.Abreast a b r s) (fuel : Nat) :
    Option.Rel (SameAnswer a b) (Run.upTo program fuel r) (Run.upTo program fuel s) := by
  induction fuel generalizing r s with
  | zero => exact .none
  | succ fuel ih =>
    rw [Run.upTo, Run.upTo]
    rcases @Run.Abreast.step program a b r s h with ⟨r', s', hr, hs, hnext⟩ | ⟨hr, hs⟩
    · rw [hr, hs]
      exact ih hnext
    · rw [hr, hs]
      exact .some ⟨h.machine, rfl⟩

/-- Nothing that a program works on or writes has changed, and no message is lost. -/
structure Undisturbed (m later : Machine) : Prop where
  registers : later.registers = m.registers
  instructions : later.instructions = m.instructions
  output : later.output = m.output
  cursor : later.cursor = m.cursor
  halted : later.halted = m.halted
  diagnostics : m.diagnostics.toList <+: later.diagnostics.toList

theorem Undisturbed.trace {later : Machine} (h : m.Undisturbed later) (t : Trace) :
    m.Undisturbed (later.trace t) :=
  ⟨h.registers, h.instructions, h.output, h.cursor, h.halted, h.diagnostics⟩

theorem undisturbed_scan (m : Machine) (source : String) : m.Undisturbed (m.scan source).1 := by
  have hdiagnostics : m.diagnostics.toList <+: (m.scan source).1.diagnostics.toList := by
    rw [diagnostics_scan]
    exact List.prefix_append _ _
  obtain ⟨diagnostics, journal, errorCount, hscan⟩ := m.exists_scan source
  rw [hscan] at hdiagnostics ⊢
  exact ⟨rfl, rfl, rfl, rfl, rfl, hdiagnostics⟩

/-- What a scan yields, by the source and the names of instructions. -/
theorem scan_congr (h : ∀ name, b.instructions.has name = a.instructions.has name) (source : String) :
    (b.scan source).2 = (a.scan source).2 ∧
      (b.scan source).1.labels = (a.scan source).1.labels ∧
      ∃ added, (a.scan source).1.diagnostics.toList = a.diagnostics.toList ++ added ∧
        (b.scan source).1.diagnostics.toList = b.diagnostics.toList ++ added := by
  have hknown : b.instructions.has = a.instructions.has := funext h
  refine ⟨?_, ?_, _, a.diagnostics_scan source, ?_⟩
  · rw [scan, scan, hknown]
  · rw [labels_scan, labels_scan, hknown]
  · rw [diagnostics_scan, hknown]

theorem IsStandard.has_eq_has (ha : a.IsStandard) (hb : b.IsStandard) (name : String) :
    b.instructions.has name = a.instructions.has name :=
  congrFun (hb.has_eq.trans ha.has_eq.symm) name

theorem parallel_scan (ha : a.IsStandard) (hb : b.IsStandard) (hregisters : b.registers = a.registers)
    (hhalted : b.halted = a.halted) (source : String) :
    a.Parallel b (a.scan source).1 (b.scan source).1 := by
  have hleft := a.undisturbed_scan source
  have hright := b.undisturbed_scan source
  obtain ⟨-, hlabels, hdiagnostics⟩ := scan_congr (ha.has_eq_has hb) source
  refine ⟨?_, hlabels, ?_, hdiagnostics, [], ?_, ?_⟩
  · rw [hleft.registers, hright.registers, hregisters]
  · rw [hleft.halted, hright.halted, hhalted]
  · rw [hleft.output, List.append_nil]
  · rw [hright.output, List.append_nil]

/-- Only the messages of this scan count, not those before it. -/
theorem errorCount_lt_scan_iff (m : Machine) (source : String) :
    m.errorCount < (m.scan source).1.errorCount ↔
      (m.scan source).1.diagnostics ≠ m.diagnostics := by
  rw [errorCount_scan]
  constructor
  · intro hlt hsame
    rw [errors_eq_nil_of_diagnostics hsame] at hlt
    exact absurd hlt (Nat.lt_irrefl _)
  · intro hchanged
    rw [Nat.lt_add_right_iff_pos, List.length_pos_iff]
    intro hnone
    apply hchanged
    rw [← Array.toList_inj, diagnostics_scan, hnone, List.append_nil]

theorem interpret_of_fault {source : String} {fault : Fault} (h : (m.scan source).2 = .error fault)
    (fuel : Nat) : m.interpret fuel source = some ((m.scan source).1, .error fault) := by
  rw [interpret]
  generalize m.scan source = result at h ⊢
  obtain ⟨scanned, answer⟩ := result
  cases h
  rfl

theorem interpret_of_messages {source : String} {ts : List Token} (h : (m.scan source).2 = .ok ts)
    (hmessages : (m.scan source).1.diagnostics ≠ m.diagnostics) (fuel : Nat) :
    ∃ n, m.interpret fuel source = some ((m.scan source).1.trace (.notRun n), .ok ()) := by
  have hcount := (m.errorCount_lt_scan_iff source).mpr hmessages
  rw [interpret]
  generalize m.scan source = result at h hcount ⊢
  obtain ⟨scanned, answer⟩ := result
  cases h
  exact ⟨_, if_pos hcount⟩

theorem interpret_of_quiet {source : String} {ts : List Token} (h : (m.scan source).2 = .ok ts)
    (hquiet : (m.scan source).1.diagnostics = m.diagnostics) (fuel : Nat) :
    m.interpret fuel source = (m.scan source).1.run fuel ts := by
  have hcount : ¬ m.errorCount < (m.scan source).1.errorCount :=
    fun hlt => (m.errorCount_lt_scan_iff source).mp hlt hquiet
  rw [interpret]
  generalize m.scan source = result at h hcount ⊢
  obtain ⟨scanned, answer⟩ := result
  cases h
  exact if_neg hcount

theorem undisturbed_interpret {source : String}
    (h : (∃ fault, (m.scan source).2 = .error fault) ∨
      (m.scan source).1.diagnostics ≠ m.diagnostics) (fuel : Nat) :
    ∃ final result, m.interpret fuel source = some (final, result) ∧ m.Undisturbed final := by
  have hscan := m.undisturbed_scan source
  cases hresult : (m.scan source).2 with
  | error fault => exact ⟨_, _, interpret_of_fault hresult fuel, hscan⟩
  | ok ts =>
    have hmessages := h.resolve_left (by rw [hresult]; nofun)
    obtain ⟨n, hinterpret⟩ := interpret_of_messages hresult hmessages fuel
    exact ⟨_, _, hinterpret, hscan.trace (.notRun n)⟩

theorem rel_interpret (ha : a.IsStandard) (hb : b.IsStandard) (hregisters : b.registers = a.registers)
    (hhalted : b.halted = a.halted) (source : String) (fuel : Nat) :
    Option.Rel (SameAnswer a b) (a.interpret fuel source) (b.interpret fuel source) := by
  have hscan := parallel_scan ha hb hregisters hhalted source
  obtain ⟨hsame, -, added, hleft, hright⟩ := scan_congr (ha.has_eq_has hb) source
  -- What is added by the scan decides, and it is the same whatever was there before.
  have hquiet : (b.scan source).1.diagnostics = b.diagnostics ↔
      (a.scan source).1.diagnostics = a.diagnostics := by
    rw [← Array.toList_inj, ← Array.toList_inj, hleft, hright]
    simp
  cases hresult : (a.scan source).2 with
  | error fault =>
    rw [interpret_of_fault hresult, interpret_of_fault (hsame.trans hresult)]
    exact .some ⟨hscan, rfl⟩
  | ok ts =>
    by_cases hmessages : (a.scan source).1.diagnostics = a.diagnostics
    · rw [interpret_of_quiet hresult hmessages,
        interpret_of_quiet (hsame.trans hresult) (hquiet.mpr hmessages)]
      have hstart : Run.Abreast a b (a.scan source).1.start (b.scan source).1.start :=
        ⟨⟨hscan.start, rfl, rfl, rfl⟩, standard_start (isStandard_scan ha source),
          standard_start (isStandard_scan hb source)⟩
      exact rel_upTo hstart fuel
    · obtain ⟨n, hn⟩ := interpret_of_messages hresult hmessages fuel
      obtain ⟨k, hk⟩ := interpret_of_messages (hsame.trans hresult) (mt hquiet.mp hmessages) fuel
      rw [hn, hk]
      exact .some ⟨hscan.trace _ _, rfl⟩

/-- Two machines with the same registers and the same halted mark interpret a source alike, also if their
runs do not end. A scan needs only the names of instructions, and leaves alone what a program works on;
so does the interpretation of a source whose scan has a message or a fault. Earlier messages do not keep
a program from running. -/
theorem interpret_independent (source : String) :
    (∀ a b : Machine, a.IsStandard → b.IsStandard → b.registers = a.registers →
      b.halted = a.halted → ∀ fuel,
        Option.Rel (SameAnswer a b) (a.interpret fuel source) (b.interpret fuel source)) ∧
    (∀ a b : Machine, (∀ name, b.instructions.has name = a.instructions.has name) →
      (b.scan source).2 = (a.scan source).2 ∧
      (b.scan source).1.labels = (a.scan source).1.labels ∧
      ∃ added, (a.scan source).1.diagnostics.toList = a.diagnostics.toList ++ added ∧
        (b.scan source).1.diagnostics.toList = b.diagnostics.toList ++ added) ∧
    (∀ m : Machine, m.Undisturbed (m.scan source).1) ∧
    (∀ (m : Machine) (fuel : Nat), ((∃ fault, (m.scan source).2 = .error fault) ∨
        (m.scan source).1.diagnostics ≠ m.diagnostics) →
      ∃ final result, m.interpret fuel source = some (final, result) ∧ m.Undisturbed final) ∧
    ∀ (m : Machine) (fuel : Nat) (ts : List Token), (m.scan source).2 = .ok ts →
      (m.scan source).1.diagnostics = m.diagnostics →
        m.interpret fuel source = (m.scan source).1.run fuel ts := by
  refine ⟨?_, ?_, ?_, ?_, ?_⟩
  · intro a b ha hb hregisters hhalted fuel
    exact rel_interpret ha hb hregisters hhalted source fuel
  · intro a b hnames
    exact scan_congr hnames source
  · intro m
    exact m.undisturbed_scan source
  · intro m fuel h
    exact undisturbed_interpret h fuel
  · intro m fuel ts hscan hquiet
    exact interpret_of_quiet hscan hquiet fuel

theorem exists_of_rel_some {α β : Type} {R : α → β → Prop} {x : α} {y : Option β}
    (h : Option.Rel R (some x) y) : ∃ z, y = some z ∧ R x z := by
  cases h with
  | some h => exact ⟨_, rfl, h⟩

def unusedMachine : Machine :=
  { standard with registers := [("a", .int 2)] }

/-- A machine after other programs, with their labels and records, and after a jump. -/
def usedMachine : Machine :=
  { unusedMachine with
    labels := [("again", 9), ("x", 3)]
    cursor := 40
    frozen := true
    jumped := true
    errorCount := 1
    diagnostics := #[.host "old"]
    output := #["old"] }

/-- The label of the last jump is known from the other program only. -/
def countingDown : String :=
  "again:\nSUB [a] 1\nPRINT [a]\nJNZ [a] again\nJMP x"

theorem interpret_independent_used :
    (∃ final, usedMachine.interpret 40 countingDown = some (final, .ok ()) ∧
      final.registers = [("a", .int 0)] ∧ final.labels = [("again", 0)] ∧
      final.diagnostics.toList = [.host "old", .invalidLabel (.label "x")] ∧
      final.output.toList = ["old", "1", "0"]) ∧
    (∃ final result, usedMachine.interpret 0 "PRINT [a]\nDIV [a] 2" = some (final, result) ∧
      final.registers = [("a", .int 2)] ∧ final.output = #["old"] ∧ final.cursor = 40) := by
  constructor
  · obtain ⟨hsame, -⟩ := interpret_independent countingDown
    have hstate : (unusedMachine.interpret 40 countingDown).map (fun answer =>
        (answer.1.registers, answer.1.labels)) = some ([("a", .int 0)], [("again", 0)]) := by
      decide +kernel
    have hrecords : (unusedMachine.interpret 40 countingDown).map (fun answer =>
        (answer.1.diagnostics, answer.1.output, answer.2.toBool)) =
          some (#[.invalidLabel (.label "x")], #["1", "0"], true) := by
      decide +kernel
    obtain ⟨⟨fresh, result⟩, hfresh, hstate⟩ := Option.map_eq_some_iff.mp hstate
    rw [hfresh, Option.map_some, Option.some_inj] at hrecords
    simp only [Prod.mk.injEq] at hstate hrecords
    obtain ⟨hdiagnostics, houtput, hresult⟩ := hrecords
    have hrel := hsame unusedMachine usedMachine (fun _ => rfl) (fun _ => rfl) rfl rfl 40
    rw [hfresh] at hrel
    obtain ⟨⟨final, answer⟩, hfinal, ⟨hparallel, hanswer⟩⟩ := exists_of_rel_some hrel
    obtain ⟨messages, hadded, hdiagnosed⟩ := hparallel.diagnostics
    obtain ⟨lines, hemitted, hwritten⟩ := hparallel.output
    have hmessages : fresh.diagnostics.toList = messages := hadded
    have hlines : fresh.output.toList = lines := hemitted
    cases result with
    | error fault => cases hresult
    | ok done =>
      cases hanswer
      refine ⟨final, hfinal, hparallel.registers.trans hstate.1, hparallel.labels.trans hstate.2, ?_, ?_⟩
      · rw [hdiagnosed, ← hmessages, hdiagnostics]
        rfl
      · rw [hwritten, ← hlines, houtput]
        rfl
  · obtain ⟨-, -, -, hundisturbed, -⟩ := interpret_independent "PRINT [a]\nDIV [a] 2"
    have hmessages : (usedMachine.scan "PRINT [a]\nDIV [a] 2").1.diagnostics ≠
        usedMachine.diagnostics := by
      decide +kernel
    obtain ⟨final, result, hfinal, hsame⟩ := hundisturbed usedMachine 0 (.inr hmessages)
    exact ⟨final, result, hfinal, hsame.registers, hsame.output, hsame.cursor⟩

end Machine

end LineAssembly
