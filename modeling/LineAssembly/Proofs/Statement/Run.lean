import LineAssembly.Proofs.Machine.Steps
import LineAssembly.Proofs.Statement

/-! # Programs run statement by statement

The machine of this module knows whole statements and a statement counter. A token run of a well-formed
program does the same, in more steps: it ends if and only if the statement run ends, and with the same
result. Labels must lie at the beginning of statements or at the end, and jumps to token indices that
no label names are left out.
-/

set_option autoImplicit false

namespace LineAssembly.Statement

def Operand.passed : Operand → Value
  | .value v => v
  | .register name => .register name

def Operand.declared (registers : Table Value) : Operand → Bool
  | .value _ => true
  | .register name => registers.has name

/-- The token index where a statement begins; at the number of all statements, the end. -/
def offset (program : List Statement) (number : Nat) : Nat :=
  (stream (program.take number)).length

/-- The number of the statement that begins at a token index. -/
def numberAt : List Statement → Nat → Nat
  | [], _ => 0
  | s :: rest, index => if index = 0 then 0 else numberAt rest (index - s.tokens.length) + 1

structure State where
  registers : Table Value
  output : Array String
  errors : Nat := 0
  halted : Bool := false
  counter : Nat := 0

namespace State

variable (program : List Statement) (labels : Table Nat)

def fail (s : State) : State :=
  { s with errors := s.errors + 1, halted := true }

def act (s : State) : Effect → State
  | .pass => { s with counter := s.counter + 1 }
  | .store name v => { s with registers := s.registers.put name v, counter := s.counter + 1 }
  | .emit text => { s with output := s.output.push text, counter := s.counter + 1 }
  | .goto index => { s with counter := numberAt program index }
  | .stop => { s with halted := true }
  | .fail _ => s.fail

/-- The registers of all operands are looked for before anything else is. -/
def perform (s : State) (statement : Statement) : State :=
  match Machine.standard.instructions.get? statement.mnemonic with
  | none => s.fail
  | some i =>
    if statement.operands.all (Operand.declared s.registers) then
      s.act program (i.effect s.registers labels (statement.operands.map Operand.passed))
    else s.fail

/-- There is no step from a halted state, nor from the end of the program. -/
def step (s : State) : Option State :=
  if s.halted then none else (program[s.counter]?).map (s.perform program labels)

def run : Nat → State → Option State
  | 0, _ => none
  | fuel + 1, s =>
    match s.step program labels with
    | none => some s
    | some after => run fuel after

end State

def State.ofMachine (m : Machine) : State :=
  { registers := m.registers, output := m.output, halted := m.halted }

theorem offset_succ {program : List Statement} {k : Nat} {s : Statement}
    (h : program[k]? = some s) : offset program (k + 1) = offset program k + s.tokens.length := by
  simp [offset, stream, List.take_add_one, h]

theorem offset_length (program : List Statement) :
    offset program program.length = (stream program).length := by
  rw [offset, List.take_length]

theorem offset_le (program : List Statement) (k : Nat) : offset program k ≤ (stream program).length := by
  have hsplit : stream program = stream (program.take k) ++ stream (program.drop k) := by
    rw [← stream_append, List.take_append_drop]
  rw [offset, hsplit, List.length_append]
  exact Nat.le_add_right _ _

theorem numberAt_offset {program : List Statement} {k : Nat} (h : k ≤ program.length) :
    numberAt program (offset program k) = k := by
  induction program generalizing k with
  | nil =>
    cases Nat.le_zero.mp h
    rfl
  | cons s rest ih =>
    cases k with
    | zero => rfl
    | succ k =>
      have hoffset : offset (s :: rest) (k + 1) = s.tokens.length + offset rest k := by
        simp [offset]
      rw [hoffset, numberAt, if_neg (by simp), Nat.add_sub_cancel_left,
        ih (Nat.le_of_succ_le_succ h)]

theorem getElem?_stream {program : List Statement} {k : Nat} {s : Statement}
    (h : program[k]? = some s) {j : Nat} (hj : j < s.tokens.length) :
    (stream program)[offset program k + j]? = s.tokens[j]? := by
  obtain ⟨hk, rfl⟩ := List.getElem?_eq_some_iff.mp h
  have hsplit : stream program =
      stream (program.take k) ++ (program[k].tokens ++ stream (program.drop (k + 1))) := by
    rw [← stream_cons, ← stream_append, List.getElem_cons_drop, List.take_append_drop]
  rw [hsplit, offset, List.getElem?_append_right (Nat.le_add_right _ _), Nat.add_sub_cancel_left,
    List.getElem?_append_left hj]

/-- The machine in the middle of a statement: only the cursor has moved. -/
def placed (m : Machine) (cursor : Nat) : Machine :=
  { m with cursor := cursor, jumped := false }

variable {tokens : Array Token} {m : Machine} {operands : List Operand} {c : Nat}

theorem step_operand_of_declared (i : Instruction) (arguments : List Value) {o : Operand}
    (hrunning : m.halted = false)
    (htoken : tokens[c]? = some o.token) (hdeclared : o.declared m.registers = true) :
    Run.step tokens ⟨placed m c, some i, arguments⟩ =
      .next ⟨placed m (c + 1), some i, arguments ++ [o.passed]⟩ := by
  rw [Run.step_of_running hrunning htoken]
  cases o with
  | value v => rfl
  | register name => exact if_pos hdeclared

theorem step_operand_of_undeclared (i : Instruction) (arguments : List Value) {o : Operand}
    (hrunning : m.halted = false)
    (htoken : tokens[c]? = some o.token) (hdeclared : o.declared m.registers = false) :
    ∃ name, Run.step tokens ⟨placed m c, some i, arguments⟩ =
      .next ⟨(placed m c).report (.token c (.undeclaredRegister name)) true, some i, arguments⟩ := by
  rw [Run.step_of_running hrunning htoken]
  cases o with
  | value v => cases hdeclared
  | register name => exact ⟨name, if_neg (ne_true_of_eq_false hdeclared)⟩

def OperandsAt (tokens : Array Token) (c : Nat) (operands : List Operand) : Prop :=
  ∀ j o, operands[j]? = some o → tokens[c + j]? = some o.token

theorem OperandsAt.head {o : Operand} (h : OperandsAt tokens c (o :: operands)) :
    tokens[c]? = some o.token :=
  h 0 o rfl

theorem OperandsAt.tail {o : Operand} (h : OperandsAt tokens c (o :: operands)) :
    OperandsAt tokens (c + 1) operands := by
  intro j o hj
  rw [Nat.add_assoc, Nat.add_comm 1]
  exact h (j + 1) o hj

structure StatementAt (tokens : Array Token) (c : Nat) (s : Statement) : Prop where
  mnemonic : tokens[c]? = some (.instruction s.mnemonic)
  operands : OperandsAt tokens (c + 1) s.operands
  last : tokens[c + 1 + s.operands.length]? = some .statementEnd

theorem statementAt_stream {program : List Statement} {k : Nat} {s : Statement}
    (h : program[k]? = some s) :
    StatementAt (stream program).toArray (offset program k) s where
  mnemonic := by
    rw [List.getElem?_toArray]
    exact getElem?_stream h (j := 0) (by simp)
  operands j o hj := by
    obtain ⟨hlt, rfl⟩ := List.getElem?_eq_some_iff.mp hj
    rw [List.getElem?_toArray, Nat.add_assoc, getElem?_stream h (by simp; omega)]
    simp [tokens, openTokens, Nat.add_comm 1, List.getElem?_append_left, hlt]
  last := by
    rw [List.getElem?_toArray, Nat.add_assoc, getElem?_stream h (by simp; omega)]
    simp [tokens, openTokens, Nat.add_comm 1]

theorem steps_operands (i : Instruction) (arguments : List Value) (hrunning : m.halted = false)
    (htokens : OperandsAt tokens c operands)
    (hdeclared : operands.all (Operand.declared m.registers) = true) :
    Run.Steps tokens operands.length ⟨placed m c, some i, arguments⟩
      ⟨placed m (c + operands.length), some i, arguments ++ operands.map Operand.passed⟩ := by
  induction operands generalizing c arguments with
  | nil =>
    rw [List.map_nil, List.append_nil]
    exact .refl _
  | cons o rest ih =>
    rw [List.all_cons, Bool.and_eq_true] at hdeclared
    have hsteps := ih (arguments ++ [o.passed]) htokens.tail hdeclared.2
    rw [Nat.add_assoc, Nat.add_comm 1, List.append_assoc] at hsteps
    exact .head (step_operand_of_declared i arguments hrunning htokens.head hdeclared.1) hsteps

/-- The first operand that names no register stops the machine, at that operand. -/
theorem steps_undeclared (i : Instruction) (arguments : List Value) (hrunning : m.halted = false)
    (htokens : OperandsAt tokens c operands)
    (hdeclared : operands.all (Operand.declared m.registers) = false) :
    ∃ n name collected, n < operands.length ∧
      Run.Steps tokens (n + 1) ⟨placed m c, some i, arguments⟩
        ⟨(placed m (c + n)).report (.token (c + n) (.undeclaredRegister name)) true, some i,
          collected⟩ := by
  induction operands generalizing c arguments with
  | nil => cases hdeclared
  | cons o rest ih =>
    cases ho : o.declared m.registers with
    | false =>
      obtain ⟨name, hstep⟩ := step_operand_of_undeclared i arguments hrunning htokens.head ho
      exact ⟨0, name, arguments, Nat.zero_lt_succ _, .single hstep⟩
    | true =>
      rw [List.all_cons, ho, Bool.true_and] at hdeclared
      obtain ⟨n, name, collected, hn, hsteps⟩ :=
        ih (arguments ++ [o.passed]) htokens.tail hdeclared
      rw [Nat.add_assoc, Nat.add_comm 1] at hsteps
      exact ⟨n + 1, name, collected, Nat.succ_lt_succ hn,
        .head (step_operand_of_declared i arguments hrunning htokens.head ho) hsteps⟩

/-- What both machines have in common, wherever they are. -/
structure Agrees (base : Machine) (m : Machine) (s : State) : Prop where
  standard : m.IsStandard
  labels : m.labels = base.labels
  registers : m.registers = s.registers
  output : m.output = s.output
  errors : m.errorCount = base.errorCount + s.errors
  halted : m.halted = s.halted

/-- Between two statements, or after a halt in the middle of one. -/
structure Matches (program : List Statement) (base : Machine) (r : Run) (s : State) : Prop
    extends Agrees base r.machine s where
  pending : s.halted = false → r.pending = none
  counter : s.halted = false → s.counter ≤ program.length
  cursor : s.halted = false → r.machine.cursor = offset program s.counter

variable {program : List Statement} {base : Machine} {s : State}

theorem Agrees.placed (h : Agrees base m s) (c : Nat) : Agrees base (placed m c) s :=
  ⟨h.standard, h.labels, h.registers, h.output, h.errors, h.halted⟩

theorem Agrees.report (h : Agrees base m s) (d : Diagnostic) :
    Agrees base (m.report d true) s.fail :=
  ⟨h.standard, h.labels, h.registers, h.output, congrArg (· + 1) h.errors, rfl⟩

theorem Agrees.matches_of_halted {r : Run} (h : Agrees base r.machine s) (hhalted : s.halted = true) :
    Matches program base r s := by
  refine ⟨h, ?_, ?_, ?_⟩ <;> (rw [hhalted]; exact nofun)

theorem Agrees.apply (h : Agrees base m s) (e : Effect) :
    Agrees base (e.apply m) (s.act program e) := by
  cases e with
  | pass => exact ⟨h.standard, h.labels, h.registers, h.output, h.errors, h.halted⟩
  | store name v =>
    have hput : m.registers.put name v = s.registers.put name v := by rw [h.registers]
    exact ⟨h.standard, h.labels, hput, h.output, h.errors, h.halted⟩
  | emit text =>
    have hpush : m.output.push text = s.output.push text := by rw [h.output]
    exact ⟨h.standard, h.labels, h.registers, hpush, h.errors, h.halted⟩
  | goto index => exact ⟨h.standard, h.labels, h.registers, h.output, h.errors, h.halted⟩
  | stop => exact ⟨h.standard, h.labels, h.registers, h.output, h.errors, rfl⟩
  | fail d => exact h.report d

theorem cursor_continued (hjumped : m.jumped = false) :
    (Run.continued m).machine.cursor = m.cursor + 1 := by
  simp [Run.continued, hjumped, Machine.advance]

theorem Agrees.continued (h : Agrees base m s) : Agrees base (Run.continued m).machine s := by
  cases hjumped : m.jumped <;> simp only [Run.continued, hjumped, Bool.false_eq_true, if_true,
    if_false]
  · exact ⟨h.standard, h.labels, h.registers, h.output, h.errors, h.halted⟩
  · exact h

theorem Agrees.act {e : Effect} (h : Agrees base m s) (hjumped : m.jumped = false)
    (hnext : s.counter + 1 ≤ program.length)
    (hcursor : m.cursor + 1 = offset program (s.counter + 1))
    (hgoto : ∀ index, e = .goto index → ∃ k ≤ program.length, index = offset program k) :
    Matches program base (Run.continued (e.apply m)) (s.act program e) := by
  have hagrees := (@Agrees.apply m program base s h e).continued
  have hmoved {after : Machine} (hsame : after.jumped = m.jumped) (hplace : after.cursor = m.cursor) :
      (Run.continued after).machine.cursor = offset program (s.counter + 1) := by
    rw [cursor_continued (hsame.trans hjumped), hplace, hcursor]
  cases e with
  | pass | store | emit => exact ⟨hagrees, fun _ => rfl, fun _ => hnext, fun _ => hmoved rfl rfl⟩
  | goto index =>
    obtain ⟨k, hk, rfl⟩ := hgoto index rfl
    have hnumber : (s.act program (.goto (offset program k))).counter = k := numberAt_offset hk
    refine ⟨hagrees, fun _ => rfl, fun _ => ?_, fun _ => ?_⟩
    · rwa [hnumber]
    · rw [hnumber]
      rfl
  | stop | fail => exact hagrees.matches_of_halted rfl

/-- Every label lies at the beginning of a statement or at the end. -/
def LabelsAtBoundaries (labels : Table Nat) (program : List Statement) : Prop :=
  ∀ name index, labels.get? name = some index → ∃ k ≤ program.length, index = offset program k

theorem State.step_eq_some_iff {labels : Table Nat} {after : State} :
    s.step program labels = some after ↔
      s.halted = false ∧ ∃ statement, program[s.counter]? = some statement ∧
        s.perform program labels statement = after := by
  cases hhalted : s.halted <;> simp [State.step, hhalted]

theorem State.step_eq_none_iff {labels : Table Nat} :
    s.step program labels = none ↔ s.halted = true ∨ program.length ≤ s.counter := by
  cases hhalted : s.halted <;> simp [State.step, hhalted]

theorem step_mnemonic {r : Run} {name : String} (hrunning : r.machine.halted = false)
    (hpending : r.pending = none) (htoken : tokens[r.machine.cursor]? = some (.instruction name)) :
    r.step tokens = match r.machine.instructions.get? name with
      | none => .next ⟨(placed r.machine r.machine.cursor).report
          (.token r.machine.cursor (.unknownInstruction name)) true, none, r.operands⟩
      | some i => .next ⟨placed r.machine (r.machine.cursor + 1), some i, []⟩ := by
  rw [Run.step_of_running hrunning htoken]
  obtain ⟨m, pending, operands⟩ := r
  cases hpending
  simp only [Run.take]
  cases m.instructions.get? name <;> rfl

theorem step_statementEnd {i : Instruction} (arguments : List Value) (hrunning : m.halted = false)
    (htoken : tokens[c]? = some .statementEnd) (hi : i ∈ Instruction.standard) :
    Run.step tokens ⟨placed m c, some i, arguments⟩ =
      .next (Run.continued ((i.effect m.registers m.labels arguments).apply (placed m c))) := by
  rw [Run.step_of_running hrunning htoken]
  exact Run.take_statementEnd hi rfl

/-- One statement is one step here, and a step for each of its tokens there, or up to its failure. -/
theorem Matches.step {r : Run} {after : State} (h : Matches program base r s)
    (hlabels : LabelsAtBoundaries base.labels program) (hjv : ∀ s ∈ program, s.mnemonic ≠ "JV")
    (hstep : s.step program base.labels = some after) :
    ∃ n r', Run.Steps (stream program).toArray (n + 1) r r' ∧ Matches program base r' after := by
  obtain ⟨hhalted, statement, hstatement, rfl⟩ := State.step_eq_some_iff.mp hstep
  have hrunning : r.machine.halted = false := h.halted.trans hhalted
  have hat := h.cursor hhalted ▸ statementAt_stream hstatement
  have hfirst := step_mnemonic hrunning (h.pending hhalted) hat.mnemonic
  rw [State.perform, ← h.standard]
  cases hfound : r.machine.instructions.get? statement.mnemonic with
  | none =>
    rw [hfound] at hfirst
    exact ⟨0, _, .single hfirst, ((h.toAgrees.placed _).report _).matches_of_halted rfl⟩
  | some i =>
    rw [hfound] at hfirst
    simp only [← h.registers]
    cases hdeclared : statement.operands.all (Operand.declared r.machine.registers) with
    | false =>
      obtain ⟨n, name, collected, -, hsteps⟩ :=
        steps_undeclared i [] hrunning hat.operands hdeclared
      exact ⟨n + 1, _, .head hfirst hsteps, ((h.toAgrees.placed _).report _).matches_of_halted rfl⟩
    | true =>
      obtain ⟨hi, hname⟩ := h.standard.mem hfound
      have hcollected := steps_operands i [] hrunning hat.operands hdeclared
      have hexecuted := Run.Steps.single
        (step_statementEnd (statement.operands.map Operand.passed) hrunning hat.last hi)
      refine ⟨statement.operands.length + 1, _, .head hfirst (hcollected.trans hexecuted), ?_⟩
      rw [h.labels, if_pos rfl]
      refine (h.toAgrees.placed _).act rfl ?_ ?_ fun index hgoto => ?_
      · exact (List.getElem?_eq_some_iff.mp hstatement).1
      · rw [offset_succ hstatement, ← h.cursor hhalted, length_tokens]
        change r.machine.cursor + 1 + statement.operands.length + 1 = _
        omega
      · have hmnemonic := hjv statement (List.mem_of_getElem? hstatement)
        obtain ⟨name, hlabel⟩ := Instruction.label_of_effect_eq_goto hi (hname ▸ hmnemonic) hgoto
        exact hlabels name index hlabel

theorem Matches.ended {r : Run} (h : Matches program base r s)
    (hstep : s.step program base.labels = none) :
    r.step (stream program).toArray = .ended r.machine (.ok ()) := by
  cases hhalted : s.halted with
  | true => exact Run.step_of_halted (h.halted.trans hhalted)
  | false =>
    have hend : program.length ≤ s.counter := by
      simpa [hhalted] using State.step_eq_none_iff.mp hstep
    have hcounter : s.counter = program.length := Nat.le_antisymm (h.counter hhalted) hend
    have hcursor := h.cursor hhalted
    rw [hcounter, offset_length] at hcursor
    have hnone : (stream program).toArray[r.machine.cursor]? = none := by
      simp [hcursor]
    rw [Run.step, hnone]

theorem Matches.upTo_of_run {r : Run} (h : Matches program base r s)
    (hlabels : LabelsAtBoundaries base.labels program) (hjv : ∀ s ∈ program, s.mnemonic ≠ "JV")
    {fuel : Nat} {last : State} (hrun : s.run program base.labels fuel = some last) :
    ∃ fuel' final, Run.upTo (stream program).toArray fuel' r = some (final, .ok ()) ∧
      Agrees base final last := by
  induction fuel generalizing r s with
  | zero => cases hrun
  | succ fuel ih =>
    rw [State.run] at hrun
    cases hstep : s.step program base.labels with
    | none =>
      rw [hstep] at hrun
      cases hrun
      exact ⟨1, r.machine, Run.upTo_of_ended (h.ended hstep), h.toAgrees⟩
    | some after =>
      rw [hstep] at hrun
      obtain ⟨n, r', hsteps, hmatches⟩ := h.step hlabels hjv hstep
      obtain ⟨fuel', final, hfinal, hagrees⟩ := ih hmatches hrun
      exact ⟨n + 1 + fuel', final, (hsteps.upTo_add fuel').trans hfinal, hagrees⟩

/-- A statement takes at least one token, so the steps that are left grow fewer. -/
theorem Matches.run_of_upTo {r : Run} (h : Matches program base r s)
    (hlabels : LabelsAtBoundaries base.labels program) (hjv : ∀ s ∈ program, s.mnemonic ≠ "JV")
    {fuel : Nat} {answer : Machine × Except Fault Unit}
    (hrun : Run.upTo (stream program).toArray fuel r = some answer) :
    ∃ fuel' last, s.run program base.labels fuel' = some last := by
  induction fuel using Nat.strongRecOn generalizing r s with
  | ind fuel ih =>
    cases hstep : s.step program base.labels with
    | none => exact ⟨1, s, by rw [State.run, hstep]⟩
    | some after =>
      obtain ⟨n, r', hsteps, hmatches⟩ := h.step hlabels hjv hstep
      obtain ⟨rest, hfuel, hrest⟩ := hsteps.exists_fuel_of_upTo hrun
      obtain ⟨fuel', last, hlast⟩ := ih rest (by omega) hmatches hrest
      exact ⟨fuel' + 1, last, by rw [State.run, hstep]; exact hlast⟩

theorem matches_start {m : Machine} (hstandard : m.IsStandard) (program : List Statement) :
    Matches program m m.start (State.ofMachine m) where
  standard := hstandard
  labels := rfl
  registers := rfl
  output := rfl
  errors := rfl
  halted := rfl
  pending _ := rfl
  counter _ := Nat.zero_le _
  cursor _ := rfl

/-- The token run refines the statement run. A machine that is halted from the start takes no step in
either. -/
theorem run_stream (program : List Statement) (m : Machine) (hstandard : m.IsStandard)
    (hlabels : LabelsAtBoundaries m.labels program) (hjv : ∀ s ∈ program, s.mnemonic ≠ "JV") :
    ((∃ fuel answer, m.run fuel (stream program) = some answer) ↔
        ∃ fuel last, (State.ofMachine m).run program m.labels fuel = some last) ∧
      ∀ fuel fuel' final result last, m.run fuel (stream program) = some (final, result) →
        (State.ofMachine m).run program m.labels fuel' = some last →
          result = .ok () ∧ final.registers = last.registers ∧ final.output = last.output ∧
            final.errorCount = m.errorCount + last.errors ∧ final.halted = last.halted := by
  have hstart := matches_start hstandard program
  refine ⟨⟨?_, ?_⟩, ?_⟩
  · rintro ⟨fuel, answer, hanswer⟩
    exact hstart.run_of_upTo hlabels hjv hanswer
  · rintro ⟨fuel, last, hlast⟩
    obtain ⟨fuel', final, hfinal, -⟩ := hstart.upTo_of_run hlabels hjv hlast
    exact ⟨fuel', _, hfinal⟩
  · intro fuel fuel' final result last hfinal hlast
    obtain ⟨fuel'', other, hother, hagrees⟩ := hstart.upTo_of_run hlabels hjv hlast
    cases Run.upTo_unique hfinal hother
    exact ⟨rfl, hagrees.registers, hagrees.output, hagrees.errors, hagrees.halted⟩

def countdown : List Statement :=
  [⟨"SET", [.register "a", .value (.int 2)]⟩,
   ⟨"SUB", [.register "a", .value (.int 1)]⟩,
   ⟨"PRINT", [.value (.label "left"), .register "a"]⟩,
   ⟨"JNZ", [.register "a", .value (.label "again")]⟩,
   ⟨"PRINT", [.register "a", .register "b"]⟩]

def countdownMachine : Machine :=
  { Machine.standard with registers := [("a", .empty)], labels := [("again", 4), ("end", 20)] }

theorem run_stream_countdown :
    ∃ fuel final, countdownMachine.run fuel (stream countdown) = some (final, .ok ()) ∧
      final.registers = [("a", .int 0)] ∧ final.output = #["left 1", "left 0"] ∧
        final.errorCount = 1 ∧ final.halted = true := by
  have hlabels : LabelsAtBoundaries countdownMachine.labels countdown := by
    intro name index h
    have hmem : name = "again" ∧ index = 4 ∨ name = "end" ∧ index = 20 := by
      simpa [countdownMachine] using Table.mem_of_get? h
    rcases hmem with ⟨-, rfl⟩ | ⟨-, rfl⟩
    · exact ⟨1, by decide, rfl⟩
    · exact ⟨5, by decide, rfl⟩
  have hstatements : (State.ofMachine countdownMachine).run countdown countdownMachine.labels 9 =
      some ⟨[("a", .int 0)], #["left 1", "left 0"], 1, true, 4⟩ := by
    rfl
  obtain ⟨hends, hsame⟩ := run_stream countdown countdownMachine (fun _ => rfl) hlabels (by decide)
  obtain ⟨fuel, ⟨final, result⟩, hfinal⟩ := hends.mpr ⟨9, _, hstatements⟩
  obtain ⟨rfl, hrest⟩ := hsame fuel 9 final result _ hfinal hstatements
  exact ⟨fuel, final, hfinal, hrest⟩

end LineAssembly.Statement
