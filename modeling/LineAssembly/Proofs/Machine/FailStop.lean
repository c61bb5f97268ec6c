import LineAssembly.Proofs.Machine.Turn
import LineAssembly.Proofs.Session

/-! # Standard programs are fail-stop

On the standard instructions a run of any tokens ends without a fault, if it ends. Each step goes on,
warns, fails or stops the machine. A failure is the last message of its run, and the step that reports
it does nothing else.
-/

set_option autoImplicit false

namespace LineAssembly.Run

variable {program : Array Token} {r before after : Run}

structure Standard (r : Run) : Prop where
  machine : r.machine.IsStandard
  pending : ∀ i, r.pending = some i → i ∈ Instruction.standard

/-- A message that halts the machine. The cursor stays at a token that is refused and goes on behind an
instruction that fails. -/
structure Fails (program : Array Token) (before after : Run) (d : Diagnostic) : Prop where
  step : before.step program = .next after
  severe : d.isWarning = false
  diagnostics : after.machine.diagnostics = before.machine.diagnostics.push d
  halted : after.machine.halted = true
  registers : after.machine.registers = before.machine.registers
  labels : after.machine.labels = before.machine.labels
  output : after.machine.output = before.machine.output
  jumped : after.machine.jumped = false
  cursor : after.machine.cursor = before.machine.cursor ∨
    after.machine.cursor = before.machine.cursor + 1

/-- The end of a statement that consists of the mnemonic only, and that mnemonic is the halt. -/
structure ExecutesHalt (program : Array Token) (r : Run) : Prop where
  running : r.machine.halted = false
  token : program[r.machine.cursor]? = some .statementEnd
  pending : ∃ i, r.pending = some i ∧ i.name = "HALT"
  operands : r.operands = []

inductive Move (program : Array Token) (before after : Run) : Prop where
  | proceeds (running : after.machine.halted = false)
    (diagnostics : after.machine.diagnostics = before.machine.diagnostics)
  | warns (d : Diagnostic) (warning : d.isWarning = true) (running : after.machine.halted = false)
    (diagnostics : after.machine.diagnostics = before.machine.diagnostics.push d)
  | fails (d : Diagnostic) (failure : Fails program before after d)
  | stops (executes : ExecutesHalt program before) (halted : after.machine.halted = true)
    (diagnostics : after.machine.diagnostics = before.machine.diagnostics)

theorem idle_pending (i : Instruction) (h : none = some i) : i ∈ Instruction.standard := by
  cases h

theorem Fails.ofToken {error : TokenError} {operands : List Value} {pending : Option Instruction}
    (hstep : before.step program = .next ⟨before.ready.tokenError error true, pending, operands⟩)
    (hsevere : (Diagnostic.token before.machine.cursor error).isWarning = false) :
    Fails program before ⟨before.ready.tokenError error true, pending, operands⟩
      (.token before.machine.cursor error) :=
  ⟨hstep, hsevere, rfl, rfl, rfl, rfl, rfl, rfl, .inl rfl⟩

theorem move_continued {i : Instruction} {e : Effect} (hi : i ∈ Instruction.standard)
    (heffect : i.effect before.machine.registers before.machine.labels before.operands = e)
    (hrunning : before.machine.halted = false) (hpending : before.pending = some i)
    (htoken : program[before.machine.cursor]? = some .statementEnd)
    (hstep : before.step program = .next (continued (e.apply before.ready))) :
    Move program before (continued (e.apply before.ready)) := by
  cases e with
  | pass | store | emit | goto => exact .proceeds hrunning rfl
  | stop =>
    obtain ⟨hname, hoperands⟩ := (Instruction.effect_eq_stop_iff hi).mp heffect
    exact .stops ⟨hrunning, htoken, ⟨i, hpending, hname⟩, hoperands⟩ rfl rfl
  | fail d =>
    exact .fails d ⟨hstep, Instruction.isWarning_of_effect_eq_fail hi heffect, rfl, rfl, rfl, rfl,
      rfl, rfl, .inr rfl⟩

theorem move_idle {token : Token} (hstandard : before.Standard)
    (hrunning : before.machine.halted = false) (hpending : before.pending = none)
    (hstep : before.step program = .next after) (htake : before.take token = .next after) :
    after.Standard ∧ Move program before after := by
  cases token with
  | instruction name =>
    simp only [take, hpending] at htake
    split at htake
    · cases htake
      exact ⟨⟨hstandard.machine, idle_pending⟩, .fails _ (.ofToken hstep rfl)⟩
    · rename_i i hfound
      cases htake
      refine ⟨⟨hstandard.machine, ?_⟩, .proceeds hrunning rfl⟩
      rintro j ⟨⟩
      exact (hstandard.machine.mem hfound).1
  | value v =>
    simp only [take, hpending] at htake
    cases htake
    exact ⟨⟨hstandard.machine, idle_pending⟩, .fails _ (.ofToken hstep rfl)⟩
  | register name =>
    simp only [take, hpending] at htake
    cases htake
    exact ⟨⟨hstandard.machine, idle_pending⟩, .warns _ rfl hrunning rfl⟩
  | statementEnd =>
    simp only [take, hpending] at htake
    cases htake
    exact ⟨⟨hstandard.machine, idle_pending⟩, .proceeds hrunning rfl⟩

theorem move_collecting {token : Token} {i : Instruction} (hstandard : before.Standard)
    (hrunning : before.machine.halted = false) (hpending : before.pending = some i)
    (htoken : program[before.machine.cursor]? = some token)
    (hstep : before.step program = .next after) (htake : before.take token = .next after) :
    after.Standard ∧ Move program before after := by
  have hi : i ∈ Instruction.standard := hstandard.pending i hpending
  have hcollecting (j : Instruction) (hj : some i = some j) : j ∈ Instruction.standard :=
    Option.some.inj hj ▸ hi
  cases token with
  | instruction name =>
    simp only [take, hpending] at htake
    cases htake
    exact ⟨⟨hstandard.machine, hcollecting⟩, .fails _ (.ofToken hstep rfl)⟩
  | value v =>
    simp only [take, hpending] at htake
    cases htake
    exact ⟨⟨hstandard.machine, hcollecting⟩, .proceeds hrunning rfl⟩
  | register name =>
    simp only [take, hpending] at htake
    split at htake
    · cases htake
      exact ⟨⟨hstandard.machine, hcollecting⟩, .proceeds hrunning rfl⟩
    · cases htake
      exact ⟨⟨hstandard.machine, hcollecting⟩, .fails _ (.ofToken hstep rfl)⟩
  | statementEnd =>
    rw [take_statementEnd hi hpending] at htake
    cases htake
    refine ⟨⟨?_, idle_pending⟩, move_continued hi rfl hrunning hpending htoken hstep⟩
    cases i.effect before.machine.registers before.machine.labels before.operands <;>
      exact hstandard.machine

theorem move_of_step (hstandard : before.Standard) (hstep : before.step program = .next after) :
    after.Standard ∧ Move program before after := by
  obtain ⟨hrunning, token, htoken, htake⟩ := exists_token_of_step hstep
  cases hpending : before.pending with
  | none => exact move_idle hstandard hrunning hpending hstep htake
  | some i => exact move_collecting hstandard hrunning hpending htoken hstep htake

theorem Steps.standard {n : Nat} (h : Steps program n before after) (hstandard : before.Standard) :
    after.Standard := by
  induction h with
  | refl r => exact hstandard
  | head first _ ih => exact ih (move_of_step hstandard first).1

/-- A standard run ends without a fault, so it ends where it is. -/
theorem eq_of_ended {m : Machine} {result : Except Fault Unit} (hstandard : r.Standard)
    (h : r.step program = .ended m result) : m = r.machine ∧ result = .ok () := by
  obtain ⟨hm, hresult, -⟩ | ⟨call, fault, hinvokes, -, hfault⟩ := ended_cases h
  · exact ⟨hm, hresult⟩
  · rw [Machine.execute_standard (hstandard.pending _ hinvokes.pending)] at hfault
    cases hfault

inductive Conclusion (program : Array Token) (r : Run) (final : Machine)
    (warnings : List Diagnostic) : Prop where
  | finished (running : final.halted = false)
    (diagnostics : final.diagnostics.toList = r.machine.diagnostics.toList ++ warnings)
  | stopped {n : Nat} {before : Run} (steps : Steps program n r before)
    (executes : ExecutesHalt program before) (halted : final.halted = true)
    (diagnostics : final.diagnostics.toList = r.machine.diagnostics.toList ++ warnings)
  | failed {n : Nat} {before after : Run} {d : Diagnostic} (steps : Steps program n r before)
    (failure : Fails program before after d) (last : after.machine = final)
    (diagnostics : final.diagnostics.toList = r.machine.diagnostics.toList ++ warnings ++ [d])

theorem Conclusion.head {final : Machine} {warnings : List Diagnostic} (extra : List Diagnostic)
    (hstep : before.step program = .next after)
    (hextra : after.machine.diagnostics.toList = before.machine.diagnostics.toList ++ extra)
    (h : Conclusion program after final warnings) :
    Conclusion program before final (extra ++ warnings) := by
  cases h with
  | finished running diagnostics =>
    exact .finished running (by rw [diagnostics, hextra, List.append_assoc])
  | stopped steps executes halted diagnostics =>
    exact .stopped (.head hstep steps) executes halted
      (by rw [diagnostics, hextra, List.append_assoc])
  | failed steps failure last diagnostics =>
    exact .failed (.head hstep steps) failure last
      (by rw [diagnostics, hextra, List.append_assoc _ extra])

theorem upTo_of_halted {m : Machine} {result : Except Fault Unit} {fuel : Nat}
    (hhalted : r.machine.halted = true) (h : upTo program fuel r = some (m, result)) :
    m = r.machine ∧ result = .ok () := by
  cases fuel with
  | zero => cases h
  | succ fuel =>
    rw [upTo_of_ended (step_of_halted hhalted)] at h
    cases h
    exact ⟨rfl, rfl⟩

theorem exists_conclusion {final : Machine} {result : Except Fault Unit} {fuel : Nat}
    (hstandard : r.Standard) (hrunning : r.machine.halted = false)
    (h : upTo program fuel r = some (final, result)) :
    result = .ok () ∧ ∃ warnings : List Diagnostic,
      (∀ d ∈ warnings, d.isWarning = true) ∧ Conclusion program r final warnings := by
  induction fuel generalizing r with
  | zero => cases h
  | succ fuel ih =>
    rw [upTo] at h
    cases hstep : r.step program with
    | ended m ended =>
      rw [hstep] at h
      cases h
      obtain ⟨rfl, rfl⟩ := eq_of_ended hstandard hstep
      exact ⟨rfl, [], List.forall_mem_nil _, .finished hrunning (by simp)⟩
    | next after =>
      rw [hstep] at h
      obtain ⟨hafter, hmove⟩ := move_of_step hstandard hstep
      cases hmove with
      | proceeds running diagnostics =>
        obtain ⟨hresult, warnings, hwarnings, hrest⟩ := ih hafter running h
        exact ⟨hresult, warnings, hwarnings, hrest.head [] hstep (by simp [diagnostics])⟩
      | warns d warning running diagnostics =>
        obtain ⟨hresult, warnings, hwarnings, hrest⟩ := ih hafter running h
        refine ⟨hresult, d :: warnings, ?_, hrest.head [d] hstep (by simp [diagnostics])⟩
        simpa [warning] using hwarnings
      | fails d failure =>
        obtain ⟨rfl, rfl⟩ := upTo_of_halted failure.halted h
        exact ⟨rfl, [], List.forall_mem_nil _,
          .failed (.refl r) failure rfl (by simp [failure.diagnostics])⟩
      | stops executes halted diagnostics =>
        obtain ⟨rfl, rfl⟩ := upTo_of_halted halted h
        exact ⟨rfl, [], List.forall_mem_nil _,
          .stopped (.refl r) executes halted (by simp [diagnostics])⟩

theorem halted_of_executesHalt {n fuel : Nat} {final : Machine} {result : Except Fault Unit}
    (hstandard : before.Standard) (hsteps : Steps program n before after)
    (hexecutes : ExecutesHalt program after)
    (h : upTo program fuel before = some (final, result)) : final.halted = true := by
  obtain ⟨i, hpending, hname⟩ := hexecutes.pending
  have hi : i ∈ Instruction.standard := (hsteps.standard hstandard).pending i hpending
  have hstop : i.effect after.machine.registers after.machine.labels after.operands = .stop :=
    (Instruction.effect_eq_stop_iff hi).mpr ⟨hname, hexecutes.operands⟩
  have hstep := step_of_running hexecutes.running hexecutes.token
  rw [take_statementEnd hi hpending, hstop] at hstep
  obtain ⟨rest, -, hrest⟩ := (hsteps.trans (.single hstep)).exists_fuel_of_upTo h
  obtain ⟨rfl, -⟩ := upTo_of_halted rfl hrest
  rfl

end LineAssembly.Run

namespace LineAssembly.Machine

theorem standard_start {m : Machine} (hstandard : m.IsStandard) : m.start.Standard :=
  ⟨hstandard, Run.idle_pending⟩

theorem isStandard_scan {m : Machine} (hstandard : m.IsStandard) (source : String) :
    (m.scan source).1.IsStandard := by
  obtain ⟨diagnostics, journal, errorCount, hscan⟩ := m.exists_scan source
  rw [hscan]
  exact hstandard

/-- A run of any tokens on the standard instructions never ends in a fault. Behind warnings it reports
at most one failure, by a step that does nothing else, and what has halted stays as it is. -/
theorem run_failStop {m final : Machine} {tokens : List Token} {fuel : Nat}
    {result : Except Fault Unit} (hstandard : m.IsStandard) (hrunning : m.halted = false)
    (hrun : m.run fuel tokens = some (final, result)) :
    result = .ok () ∧
    (∃ (warnings : List Diagnostic) (failure : Option Diagnostic),
      final.diagnostics.toList = m.diagnostics.toList ++ warnings ++ failure.toList ∧
      (∀ d ∈ warnings, d.isWarning = true) ∧
      (∀ d, failure = some d → ∃ n before after, Run.Steps tokens.toArray n m.start before ∧
        Run.Fails tokens.toArray before after d ∧ after.machine = final) ∧
      (final.halted = true ↔ failure.isSome = true ∨
        ∃ n r, Run.Steps tokens.toArray n m.start r ∧ r.ExecutesHalt tokens.toArray)) ∧
    (final.halted = true → ∀ fuel' requests, (∀ q ∈ requests, q.isProgram = true) →
      ∃ later, final.serveAll (fuel' + 1) requests = some later ∧
        later.registers = final.registers ∧ later.output = final.output) := by
  have hstart := standard_start hstandard
  obtain ⟨rfl, warnings, hwarnings, hconclusion⟩ := Run.exists_conclusion hstart hrunning hrun
  refine ⟨rfl, ?_, ?_⟩
  · cases hconclusion with
    | finished running diagnostics =>
      refine ⟨warnings, none, diagnostics.trans (List.append_nil _).symm, hwarnings, nofun, ?_⟩
      constructor
      · intro hhalted
        rw [running] at hhalted
        cases hhalted
      · rintro (⟨⟨⟩⟩ | ⟨n, r, hsteps, hexecutes⟩)
        exact Run.halted_of_executesHalt hstart hsteps hexecutes hrun
    | stopped steps executes halted diagnostics =>
      refine ⟨warnings, none, diagnostics.trans (List.append_nil _).symm, hwarnings, nofun, ?_⟩
      exact iff_of_true halted (.inr ⟨_, _, steps, executes⟩)
    | @failed n before after d steps failure last diagnostics =>
      refine ⟨warnings, some d, diagnostics, hwarnings, ?_, ?_⟩
      · rintro d' ⟨⟩
        exact ⟨n, before, after, steps, failure, last⟩
      · exact iff_of_true (last ▸ failure.halted) (.inl rfl)
  · intro hhalted fuel' requests hrequests
    obtain ⟨later, hlater, hsame⟩ := haltedAs_serveAll hhalted fuel' hrequests
    exact ⟨later, hlater, hsame.registers, hsame.output⟩

def unreadable : List Token :=
  [.register "a", .instruction "PRINT", .value (.int 5), .value (.register "b"), .statementEnd]

def unreadableMachine : Machine :=
  { standard with registers := [("a", .int 1)] }

theorem run_failStop_unreadable :
    ∃ final, unreadableMachine.run 7 unreadable = some (final, .ok ()) ∧
      final.diagnostics = #[.token 0 (.strayRegister "a"), .undefinedRegister (.register "b")] ∧
      ∃ later, final.serveAll 1 [.interpret "SET [a] 2", .act (.load "PRINT [a]"), .run none] =
        some later ∧ later.registers = [("a", .int 1)] ∧ later.output = #[] := by
  have hrun : ∃ final, unreadableMachine.run 7 unreadable = some (final, .ok ()) ∧
      final.halted = true ∧ final.registers = [("a", .int 1)] ∧ final.output = #[] ∧
        final.diagnostics =
          #[.token 0 (.strayRegister "a"), .undefinedRegister (.register "b")] :=
    ⟨_, rfl, rfl, rfl, rfl, rfl⟩
  obtain ⟨final, hfinal, hhalted, hregisters, houtput, hdiagnostics⟩ := hrun
  have hstandard : unreadableMachine.IsStandard := fun _ => rfl
  obtain ⟨-, -, hstays⟩ := run_failStop hstandard rfl hfinal
  obtain ⟨later, hlater, hsame, hquiet⟩ := hstays hhalted 0
    [.interpret "SET [a] 2", .act (.load "PRINT [a]"), .run none] (by simp [Request.isProgram])
  exact ⟨final, hfinal, hdiagnostics, later, hlater, hsame.trans hregisters, hquiet.trans houtput⟩

end LineAssembly.Machine
