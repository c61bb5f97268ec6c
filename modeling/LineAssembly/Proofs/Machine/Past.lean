import LineAssembly.Session
import LineAssembly.Proofs.Machine.Choice

/-! # Machines with a past

A reset leaves two things behind that a new machine does not have: the events that were journalled before
it, and the mark of an earlier jump. Every operation is the same on a machine with such a past, and passes
the past on. Only a run looks at the mark, and it takes the mark away before it does.
-/

set_option autoImplicit false

namespace LineAssembly

structure Past where
  events : Array Event
  jumped : Bool

def Past.settled (p : Past) : Past :=
  { p with jumped := false }

namespace Machine

/-- The machine with an earlier life. -/
def behind (m : Machine) (p : Past) : Machine :=
  { m with journal := p.events ++ m.journal, jumped := m.jumped || p.jumped }

end Machine

/-- An answer of a machine with an earlier life. -/
def Past.carry {α : Type} (p : Past) (answer : Machine × α) : Machine × α :=
  (answer.1.behind p, answer.2)

namespace Machine

section Access

variable (m : Machine) (p : Past)

theorem log_behind (e : Event) : (m.behind p).log e = (m.log e).behind p := by
  simp [log, behind]

theorem report_behind (d : Diagnostic) (halting : Bool) :
    (m.behind p).report d halting = (m.report d halting).behind p := by
  cases halting <;> simp [report, trace, log, behind]

theorem reportShowing_behind (integers : List Int) (d : Diagnostic) :
    (m.behind p).reportShowing integers d = p.carry (m.reportShowing integers d) := by
  rw [reportShowing, reportShowing]
  split
  · exact Prod.ext (m.report_behind p d true) rfl
  · rfl

theorem answering_carry {α β : Type} (answer : α → β) (result : Machine × Except Fault α) :
    answering answer (p.carry result) = p.carry (answering answer result) :=
  rfl

theorem emit_behind (text : String) : (m.behind p).emit text = (m.emit text).behind p := by
  simp [emit, behind]

theorem reset_behind : (m.behind p).reset = m.reset.behind p := by
  simp [reset, behind]

theorem moveTo_behind (index : Nat) : (m.behind p).moveTo index = (m.moveTo index).behind p := by
  simp [moveTo, trace, log, behind]

theorem dump_behind : (m.behind p).dump = m.dump.behind p := by
  have hlines (lines : List String) (start : Machine) :
      lines.foldl (fun m line => m.log (.dumped line)) (start.behind p) =
        (lines.foldl (fun m line => m.log (.dumped line)) start).behind p := by
    induction lines generalizing start with
    | nil => rfl
    | cons line rest ih =>
      rw [List.foldl_cons, log_behind]
      exact ih _
  exact hlines m.stateLines m

theorem apply_behind (e : Effect) : e.apply (m.behind p) = (e.apply m).behind p := by
  cases e with
  | pass | store | stop => rfl
  | emit text => exact m.emit_behind p text
  | goto index => exact m.moveTo_behind p index
  | fail d => exact m.report_behind p d true

theorem read_behind (v : Value) : (m.behind p).read v = p.carry (m.read v) := by
  have hregisters : (m.behind p).registers = m.registers := rfl
  rw [read_eq, read_eq, hregisters]
  cases v.found m.registers with
  | error d => exact congrArg (·, none) (m.report_behind p d true)
  | ok found => rfl

theorem readInt_behind (v : Value) : (m.behind p).readInt v = p.carry (m.readInt v) := by
  have hregisters : (m.behind p).registers = m.registers := rfl
  rw [readInt_eq, readInt_eq, hregisters]
  cases v.integer m.registers with
  | error d => exact congrArg (·, none) (m.report_behind p d true)
  | ok n => rfl

theorem destination_behind (target : Value) : (m.behind p).destination target = m.destination target :=
  rfl

theorem write_behind (target v : Value) : (m.behind p).write target v = p.carry (m.write target v) := by
  rw [write, write, destination_behind, read_behind]
  cases m.destination target with
  | error d => exact congrArg (·, false) (m.report_behind p d true)
  | ok name =>
    rcases m.read v with ⟨later, _ | found⟩ <;> rfl

theorem writeInt_behind (target : Value) (n : Int) :
    (m.behind p).writeInt target n = p.carry (m.writeInt target n) := by
  rw [writeInt, writeInt, destination_behind, reportShowing_behind]
  cases m.destination target with
  | error d => exact Prod.ext (m.report_behind p d true) rfl
  | ok name => cases Value.ofInt? n <;> rfl

theorem jump_behind (index : Int) : (m.behind p).jump index = p.carry (m.jump index) := by
  rw [jump, jump]
  split
  · exact m.reportShowing_behind p _ _
  · exact Prod.ext (m.moveTo_behind p _) rfl

theorem jumpToValue_behind (v : Value) :
    (m.behind p).jumpToValue v = (m.jumpToValue v).behind p := by
  rw [jumpToValue_eq, jumpToValue_eq]
  exact m.apply_behind p _

theorem jumpToLabel_behind (v : Value) :
    (m.behind p).jumpToLabel v = (m.jumpToLabel v).behind p := by
  rw [jumpToLabel_eq, jumpToLabel_eq]
  exact m.apply_behind p _

theorem operation_behind (operation : Operation) (arguments : List Value) :
    operation.perform arguments (m.behind p) = p.carry (operation.perform arguments m) := by
  have hregisters : (m.behind p).registers = m.registers := rfl
  have hlabels : (m.behind p).labels = m.labels := rfl
  rw [Operation.perform_eq, Operation.perform_eq, hregisters, hlabels]
  cases operation.effect m.registers m.labels arguments with
  | none => rfl
  | some e => exact Prod.ext (m.apply_behind p e) rfl

end Access

section Configuration

variable (m : Machine) (p : Past)

theorem insertRegister_behind (name : String) :
    (m.behind p).insertRegister name = (m.insertRegister name).map (·.behind p) := by
  have hfrozen : (m.behind p).frozen = m.frozen := rfl
  have hregisters : (m.behind p).registers = m.registers := rfl
  rw [insertRegister, insertRegister, hfrozen, hregisters]
  split
  · rfl
  · split
    · rfl
    · split <;> rfl

theorem insertInstruction_behind (i : Instruction) :
    (m.behind p).insertInstruction i = (m.insertInstruction i).map (·.behind p) := by
  have hfrozen : (m.behind p).frozen = m.frozen := rfl
  have hinstructions : (m.behind p).instructions = m.instructions := rfl
  rw [insertInstruction, insertInstruction, hfrozen, hinstructions]
  split
  · rfl
  · cases m.instructions.add i <;> rfl

theorem insertInstructions_behind (is : List Instruction) :
    (m.behind p).insertInstructions is = p.carry (m.insertInstructions is) := by
  induction is generalizing m with
  | nil => rfl
  | cons i rest ih =>
    rw [insertInstructions, insertInstructions, insertInstruction_behind]
    cases m.insertInstruction i with
    | error fault => rfl
    | ok later => exact ih later

theorem note_behind (n : Note) : (m.behind p).note n = (m.note n).behind p := by
  cases n with
  | error d => exact m.report_behind p d false
  | trace t => exact m.log_behind p (.traced t)

theorem scan_behind (source : String) : (m.behind p).scan source = p.carry (m.scan source) := by
  have hnotes (notes : List Note) (start : Machine) :
      notes.foldl note (start.behind p) = (notes.foldl note start).behind p := by
    induction notes generalizing start with
    | nil => rfl
    | cons n rest ih =>
      rw [List.foldl_cons, note_behind]
      exact ih _
  let r := Reading.ofSource m.instructions.has source
  exact Prod.ext
    (hnotes r.notes { m with frozen := true, labels := Table.putAll [] r.bindings }) rfl

theorem load_behind (source : String) : (m.behind p).load source = p.carry (m.load source) := by
  rw [load, load, scan_behind]
  rcases m.scan source with ⟨scanned, fault | tokens⟩ <;> rfl

end Configuration

section Script

variable {m : Machine} {p : Past} {arguments : List Value}

theorem withOperand_behind {o : Operand} {step step' : Value → Machine × Except Fault Flow}
    (hstep : ∀ v, step' v = p.carry (step v)) :
    (m.behind p).withOperand arguments o step' = p.carry (m.withOperand arguments o step) := by
  rw [withOperand, withOperand]
  split
  · rfl
  · rfl
  · exact hstep _

theorem withOperands_behind {os : List Operand} {step step' : List Value → Machine × Except Fault Flow}
    (hstep : ∀ vs, step' vs = p.carry (step vs)) :
    (m.behind p).withOperands arguments os step' = p.carry (m.withOperands arguments os step) := by
  induction os generalizing step step' with
  | nil => exact hstep []
  | cons o rest ih => exact withOperand_behind fun v => ih fun vs => hstep (v :: vs)

theorem withInt_behind {o : Operand} {step step' : Machine → Int → Machine × Except Fault Flow}
    (hstep : ∀ m n, step' (m.behind p) n = p.carry (step m n)) :
    (m.behind p).withInt arguments o step' = p.carry (m.withInt arguments o step) := by
  refine withOperand_behind fun v => ?_
  rw [readInt_behind]
  rcases m.readInt v with ⟨later, _ | n⟩
  · rfl
  · exact hstep later n

theorem withInstruction_behind {name : String} {step step' : Instruction → Machine × Except Fault Flow}
    (hstep : ∀ i, step' i = p.carry (step i)) :
    (m.behind p).withInstruction name step' = p.carry (m.withInstruction name step) := by
  have hinstructions : (m.behind p).instructions = m.instructions := rfl
  rw [withInstruction, withInstruction, hinstructions]
  split
  · rfl
  · exact hstep _

/-- A way to execute instructions that does not look at the past. -/
def Call.Commutes (p : Past) (call : Call) : Prop :=
  ∀ i arguments m, call i arguments (m.behind p) = p.carry (call i arguments m)

theorem perform_behind {call : Call} (hcall : Call.Commutes p call) (action : Action) :
    (m.behind p).perform call arguments action = p.carry (m.perform call arguments action) := by
  cases action with
  | insertRegister name =>
    simp only [perform, insertRegister_behind]
    cases m.insertRegister name <;> rfl
  | insertInstruction d =>
    simp only [perform, insertInstructions_behind, answering_carry]
    cases Instruction.ofDeclaration d <;> rfl
  | insertInstructions ds =>
    simp only [perform, insertInstructions_behind, answering_carry]
    cases Instruction.ofDeclarations ds <;> rfl
  | insertStandard => simp only [perform, insertInstructions_behind, answering_carry]
  | load source => simp only [perform, load_behind, answering_carry]
  | listing =>
    have hprogram : (m.behind p).program = m.program := rfl
    have hlabels : (m.behind p).labels = m.labels := rfl
    simp only [perform, hprogram, hlabels]
    split <;> rfl
  | reset => exact Prod.ext (m.reset_behind p) rfl
  | halt => rfl
  | emit text => exact Prod.ext (m.emit_behind p text) rfl
  | report message halting => exact Prod.ext (m.report_behind p _ halting) rfl
  | dump => exact Prod.ext (m.dump_behind p) rfl
  | read o =>
    refine withOperand_behind fun v => ?_
    rw [read_behind]
    rfl
  | readInt o =>
    refine withOperand_behind fun v => ?_
    rw [readInt_behind]
    rfl
  | write target written =>
    cases written with
    | operand o =>
      refine withOperand_behind fun target => withOperand_behind fun v => ?_
      rw [write_behind]
      rfl
    | integer n =>
      refine withOperand_behind fun target => ?_
      rw [writeInt_behind, answering_carry]
  | jump index => simp only [perform, jump_behind, answering_carry]
  | jumpToValue o =>
    exact withOperand_behind fun v => Prod.ext (m.jumpToValue_behind p v) rfl
  | jumpToLabel o =>
    exact withOperand_behind fun v => Prod.ext (m.jumpToLabel_behind p v) rfl
  | assign name o => exact withOperand_behind fun v => rfl
  | accepts name counts => exact withInstruction_behind fun i => rfl
  | execute name operands =>
    refine withInstruction_behind fun i => withOperands_behind fun values => ?_
    rw [hcall, answering_carry]
  | add target left right =>
    refine withInt_behind fun m a => withInt_behind fun m b => withOperand_behind fun target => ?_
    rw [writeInt_behind, answering_carry]
  | stopUnlessLess left right => exact withInt_behind fun m a => withInt_behind fun m b => rfl

theorem follow_behind {call : Call} (hcall : Call.Commutes p call) (script : Script) :
    follow call arguments script (m.behind p) = p.carry (follow call arguments script m) := by
  induction script generalizing m with
  | nil => rfl
  | cons action rest ih =>
    rw [follow, follow, perform_behind hcall]
    rcases m.perform call arguments action with ⟨later, fault | stop | reply⟩
    · rfl
    · rfl
    · exact ih

theorem commutes_executeWithin (p : Past) (depth : Nat) : Call.Commutes p (executeWithin depth) := by
  induction depth with
  | zero =>
    intro i arguments m
    rw [executeWithin, executeWithin]
    split
    · split
      · exact m.operation_behind p _ arguments
      · rfl
    · exact m.reportShowing_behind p _ _
  | succ depth ih =>
    intro i arguments m
    rw [executeWithin, executeWithin]
    split
    · split
      · exact m.operation_behind p _ arguments
      · rw [log_behind]
        exact follow_behind ih _
    · exact m.reportShowing_behind p _ _

end Script

end Machine

/-! ## Running a program -/

def Run.behind (r : Run) (p : Past) : Run :=
  { r with machine := r.machine.behind p }

def Progress.behind (p : Past) : Progress → Progress
  | .next r => .next (r.behind p)
  | .ended m result => .ended (m.behind p) result

namespace Run

variable {program : Array Token} (r : Run) (p : Past)

theorem ready_behind : (r.behind p).ready = r.ready.behind p.settled := by
  simp [ready, behind, Machine.behind, Past.settled]

theorem choose_behind (token : Token) : (r.behind p).choose token = r.choose token := by
  cases token <;> rfl

theorem continued_behind (m : Machine) :
    continued (m.behind p.settled) = (continued m).behind p.settled := by
  have hjumped : (m.behind p.settled).jumped = m.jumped := Bool.or_false m.jumped
  rw [continued, continued, hjumped]
  split <;> rfl

theorem answer_behind (choice : Choice) :
    (r.behind p).answer choice = (r.answer choice).behind p.settled := by
  have herror (error : TokenError) (halting : Bool) : (r.behind p).ready.tokenError error halting =
      (r.ready.tokenError error halting).behind p.settled := by
    rw [ready_behind]
    exact r.ready.report_behind p.settled _ halting
  have hadvance : (r.behind p).ready.advance = r.ready.advance.behind p.settled := by
    rw [ready_behind]
    rfl
  have hnext {m other : Machine} (h : m = other.behind p.settled) (pending : Option Instruction)
      (operands : List Value) : Progress.next ⟨m, pending, operands⟩ =
        (Progress.next ⟨other, pending, operands⟩).behind p.settled := by
    rw [h]
    rfl
  cases choice with
  | refuse error => exact hnext (herror error true) r.pending r.operands
  | warn name =>
    exact hnext (congrArg Machine.advance (herror (.strayRegister name) false)) r.pending r.operands
  | skip => exact hnext hadvance r.pending r.operands
  | start i => exact hnext hadvance (some i) []
  | collect v => exact hnext hadvance r.pending (r.operands ++ [v])
  | finish i =>
    have hexecute : (r.behind p).ready.execute i r.operands =
        p.settled.carry (r.ready.execute i r.operands) := by
      rw [ready_behind]
      exact Machine.commutes_executeWithin p.settled Machine.callLimit i r.operands r.ready
    have hoperands : (r.behind p).operands = r.operands := rfl
    rw [answer, answer, hoperands, hexecute]
    rcases r.ready.execute i r.operands with ⟨later, fault | ⟨⟩⟩
    · rfl
    · exact congrArg Progress.next (continued_behind p later)

theorem take_behind (token : Token) : (r.behind p).take token = (r.take token).behind p.settled := by
  rw [take_eq_answer, take_eq_answer, choose_behind, answer_behind]

/-- The mark of an earlier jump is gone after the first token. -/
theorem exists_step_behind : ∃ jumped,
    (r.behind p).step program = (r.step program).behind { p with jumped := jumped } := by
  have hcursor : (r.behind p).machine.cursor = r.machine.cursor := rfl
  have hhalted : (r.behind p).machine.halted = r.machine.halted := rfl
  rw [step, step, hcursor, hhalted]
  split
  · exact ⟨p.jumped, rfl⟩
  · split
    · exact ⟨p.jumped, rfl⟩
    · exact ⟨false, r.take_behind p _⟩

theorem exists_upTo_behind (fuel : Nat) : ∃ jumped,
    upTo program fuel (r.behind p) =
      (upTo program fuel r).map (Past.carry { p with jumped := jumped }) := by
  induction fuel generalizing r p with
  | zero => exact ⟨p.jumped, rfl⟩
  | succ fuel ih =>
    obtain ⟨jumped, hstep⟩ := @exists_step_behind program r p
    rw [upTo, upTo, hstep]
    cases r.step program with
    | ended m result => exact ⟨jumped, rfl⟩
    | next after => exact ih after { p with jumped := jumped }

end Run

namespace Machine

variable (m : Machine) (p : Past) (fuel : Nat)

theorem exists_run_behind (tokens : List Token) : ∃ jumped,
    (m.behind p).run fuel tokens =
      (m.run fuel tokens).map (Past.carry { p with jumped := jumped }) :=
  m.start.exists_upTo_behind p fuel

theorem exists_interpret_behind (source : String) : ∃ jumped,
    (m.behind p).interpret fuel source =
      (m.interpret fuel source).map (Past.carry { p with jumped := jumped }) := by
  have hcount (scanned : Machine) : (scanned.behind p).errorCount = scanned.errorCount := rfl
  rw [interpret, interpret, scan_behind]
  rcases m.scan source with ⟨scanned, fault | tokens⟩
  · exact ⟨p.jumped, rfl⟩
  · simp only [Past.carry, hcount]
    split
    · refine ⟨p.jumped, ?_⟩
      rw [trace, log_behind]
      rfl
    · exact scanned.exists_run_behind p fuel tokens

theorem exists_serve_behind (q : Request) : ∃ jumped,
    (m.behind p).serve fuel q = (m.serve fuel q).map (Past.carry { p with jumped := jumped }) := by
  cases q with
  | act action =>
    refine ⟨p.jumped, ?_⟩
    rw [serve, serve, perform_behind (commutes_executeWithin p callLimit)]
    rcases m.perform (executeWithin callLimit) [] action with ⟨later, fault | stop | reply⟩ <;> rfl
  | run tokens =>
    obtain ⟨jumped, hrun⟩ := m.exists_run_behind p fuel (tokens.getD m.program)
    have hprogram : (m.behind p).program = m.program := rfl
    refine ⟨jumped, ?_⟩
    rw [serve, serve, hprogram, hrun, Option.map_map, Option.map_map]
    rfl
  | interpret source =>
    obtain ⟨jumped, hinterpret⟩ := m.exists_interpret_behind p fuel source
    refine ⟨jumped, ?_⟩
    rw [serve, serve, hinterpret, Option.map_map, Option.map_map]
    rfl

end Machine

end LineAssembly
