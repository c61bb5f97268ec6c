import LineAssembly.Proofs.Machine.Insertion
import LineAssembly.Proofs.Session
import Mathlib.Logic.Relation

/-! # Changes of a machine

Whatever a host asks of a machine, the machine answers by changes of a few kinds, one after the other: the
deeds of an action, and the moves of the cursor that a run makes of its own accord. Each change says under
which conditions it is made, so a property of machines that every change keeps is kept by every request,
also by one that ends in a fault or that goes on for ever. Which actions a host allows itself, in requests
and in the scripts of its instructions, is a parameter.
-/

set_option autoImplicit false

namespace LineAssembly

/-- Every action of the script is permitted. A standard operation has no script. -/
def Instruction.Within (P : Action → Prop) (i : Instruction) : Prop :=
  ∀ steps, i.body = .script steps → ∀ action ∈ steps, P action

/-- A permitted action declares only scripts of permitted actions. -/
structure Action.Hereditary (P : Action → Prop) : Prop where
  single : ∀ {d steps}, P (.insertInstruction d) → d.body = some steps → ∀ action ∈ steps, P action
  several : ∀ {ds d steps}, P (.insertInstructions ds) → d ∈ ds → d.body = some steps →
    ∀ action ∈ steps, P action

/-- An event that goes into no record of the machine and clears none. -/
def Event.isAside : Event → Bool
  | .dumped _ | .traced _ | .called .. => true
  | .diagnosed _ | .emitted _ | .cleared => false

namespace Instruction

variable {P : Action → Prop}

theorem within_of_mem_standard {i : Instruction} (h : i ∈ standard) : i.Within P := by
  intro steps hbody
  obtain ⟨operation, hstandard, -⟩ := exists_operation_of_mem_standard h
  rw [hstandard] at hbody
  cases hbody

theorem within_of_ofDeclaration {d : Declaration Script} {i : Instruction}
    (hd : ∀ steps, d.body = some steps → ∀ action ∈ steps, P action) (h : ofDeclaration d = .ok i) :
    i.Within P := by
  have hbody : ∃ steps, d.body = some steps ∧ i.body = .script steps := by
    revert h
    fun_cases ofDeclaration d <;> rintro ⟨⟩ <;> exact ⟨_, ‹_›, rfl⟩
  obtain ⟨steps, hsteps, hscript⟩ := hbody
  rintro others hothers
  cases hscript.symm.trans hothers
  exact hd steps hsteps

theorem exists_of_mem_ofDeclarations {ds : List (Declaration Script)} {is : List Instruction}
    (h : ofDeclarations ds = .ok is) {i : Instruction} (hi : i ∈ is) :
    ∃ d ∈ ds, ofDeclaration d = .ok i := by
  induction ds generalizing is with
  | nil =>
    cases h
    cases hi
  | cons d rest ih =>
    rw [ofDeclarations] at h
    split at h
    · cases h
    · rename_i first hfirst
      split at h
      · cases h
      · rename_i others hothers
        cases h
        rcases List.mem_cons.mp hi with rfl | hi
        · exact ⟨d, List.mem_cons_self, hfirst⟩
        · obtain ⟨d', hd', hi'⟩ := ih hothers hi
          exact ⟨d', List.mem_cons_of_mem _ hd', hi'⟩

end Instruction

namespace Machine

variable {P : Action → Prop}

def Within (P : Action → Prop) (m : Machine) : Prop :=
  ∀ name i, m.instructions.get? name = some i → i.Within P

/-- What an action does to a machine, one thing at a time. -/
inductive Deed (P : Action → Prop) (m : Machine) : Machine → Prop where
  | declare (name : String) (thawed : m.frozen = false) (valid : Text.isName name.toList = true)
    (new : m.registers.has name = false) :
    Deed P m { m with registers := m.registers.put name .empty }
  | install (i : Instruction) (thawed : m.frozen = false) (new : m.instructions.has i.name = false)
    (within : i.Within P) : Deed P m { m with instructions := m.instructions.put i.name i }
  | bindLabels (bindings : List (String × Nat)) :
    Deed P m { m with frozen := true, labels := Table.putAll [] bindings }
  | hold (tokens : List Token) : Deed P m { m with program := tokens }
  | log (e : Event) (aside : e.isAside = true) : Deed P m (m.log e)
  | report (d : Diagnostic) (halting : Bool) : Deed P m (m.report d halting)
  | emit (text : String) : Deed P m (m.emit text)
  | halt : Deed P m m.halt
  | reset (permitted : P .reset) : Deed P m m.reset
  /-- A declared register takes the value behind an operand. -/
  | store (name : String) {v found : Value} (declared : m.registers.has name = true)
    (resolved : v.resolve m.registers = some found) : Deed P m (m.assign name found)
  | assign (name : String) (o : Operand) (v : Value) (permitted : P (.assign name o)) :
    Deed P m (m.assign name v)
  | moveTo (index : Nat) : Deed P m (m.moveTo index)

abbrev Deeds (P : Action → Prop) : Machine → Machine → Prop :=
  Relation.ReflTransGen (Deed P)

/-- A deed, or what a run does to its machine between two executions. -/
inductive Change (P : Action → Prop) (m : Machine) : Machine → Prop where
  | deed {later : Machine} (h : Deed P m later) : Change P m later
  | start : Change P m m.start.machine
  | settle : Change P m { m with jumped := false }
  | advance : Change P m m.advance

abbrev Changes (P : Action → Prop) : Machine → Machine → Prop :=
  Relation.ReflTransGen (Change P)

theorem Deeds.changes {m later : Machine} (h : Deeds P m later) : Changes P m later :=
  Relation.ReflTransGen.mono (fun _ _ => Change.deed) m later h

theorem Deed.within {m later : Machine} (h : Deed P m later) (hm : m.Within P) : later.Within P := by
  cases h with
  | install i thawed new within =>
    intro name j hj
    rw [Table.get?_put] at hj
    split at hj
    · cases hj
      exact within
    · exact hm name j hj
  | report d halting => cases halting <;> exact hm
  | declare | bindLabels | hold | log | emit | halt | reset | store | assign | moveTo => exact hm

theorem Change.within {m later : Machine} (h : Change P m later) (hm : m.Within P) :
    later.Within P := by
  cases h with
  | deed h => exact h.within hm
  | start | settle | advance => exact hm

theorem Changes.within {m later : Machine} (h : Changes P m later) (hm : m.Within P) :
    later.Within P := by
  induction h with
  | refl => exact hm
  | tail _ last ih => exact last.within ih

/-- A frozen machine stays frozen. -/
theorem Deed.thawed {m later : Machine} (h : Deed P m later) (hthawed : later.frozen = false) :
    m.frozen = false := by
  cases h with
  | bindLabels => cases hthawed
  | report d halting => cases halting <;> exact hthawed
  | declare | install | hold | log | emit | halt | reset | store | assign | moveTo => exact hthawed

theorem Deeds.thawed {m later : Machine} (h : Deeds P m later) (hthawed : later.frozen = false) :
    m.frozen = false := by
  induction h with
  | refl => exact hthawed
  | tail _ last ih => exact ih (last.thawed hthawed)

/-! ## Reading, writing and jumping -/

section Access

variable (m : Machine)

theorem deeds_report (d : Diagnostic) (halting : Bool) : Deeds P m (m.report d halting) :=
  .single (.report d halting)

theorem deeds_reportShowing (integers : List Int) (d : Diagnostic) :
    Deeds P m (m.reportShowing integers d).1 := by
  rw [reportShowing]
  split
  · exact m.deeds_report d true
  · exact .refl

theorem deeds_read (v : Value) : Deeds P m (m.read v).1 := by
  rw [read]
  split
  · exact m.deeds_report _ true
  · exact .refl

theorem deeds_readInt (v : Value) : Deeds P m (m.readInt v).1 := by
  rw [readInt_eq]
  split
  · exact .refl
  · exact m.deeds_report _ true

theorem has_of_destination {target : Value} {name : String} (h : m.destination target = .ok name) :
    m.registers.has name = true := by
  revert h
  fun_cases destination m target <;> rintro ⟨⟩
  assumption

theorem deeds_write (target v : Value) : Deeds P m (m.write target v).1 := by
  rw [write]
  split
  · exact m.deeds_report _ true
  · rename_i name htarget
    rw [read]
    cases hfound : v.resolve m.registers with
    | none => exact m.deeds_report _ true
    | some found => exact .single (.store name (m.has_of_destination htarget) hfound)

theorem deeds_writeInt (target : Value) (n : Int) : Deeds P m (m.writeInt target n).1 := by
  rw [writeInt]
  split
  · exact m.deeds_report _ true
  · rename_i name htarget
    cases hstored : Value.ofInt? n with
    | none => exact m.deeds_reportShowing _ _
    | some v =>
      -- An integer is no reference, so it is the value behind itself.
      have hresolve : v.resolve m.registers = some v := by
        rw [Value.ofInt?] at hstored
        split at hstored <;> cases hstored
        rfl
      exact .single (.store name (m.has_of_destination htarget) hresolve)

theorem deeds_jump (index : Int) : Deeds P m (m.jump index).1 := by
  rw [jump]
  split
  · exact m.deeds_reportShowing _ _
  · exact .single (.moveTo _)

theorem deeds_jumpToValue (v : Value) : Deeds P m (m.jumpToValue v) := by
  rw [jumpToValue]
  split
  · split
    · exact .single (.moveTo _)
    · exact m.deeds_report _ true
  · exact m.deeds_report _ true

theorem deeds_jumpToLabel (v : Value) : Deeds P m (m.jumpToLabel v) := by
  rw [jumpToLabel]
  split
  · split
    · exact .single (.moveTo _)
    · exact m.deeds_report _ true
  · exact m.deeds_report _ true

theorem deeds_dump : Deeds P m m.dump := by
  have hlines (lines : List String) (start : Machine) :
      Deeds P start (lines.foldl (fun m line => m.log (.dumped line)) start) := by
    induction lines generalizing start with
    | nil => exact .refl
    | cons line rest ih => exact .head (.log (.dumped line) rfl) (ih _)
  exact hlines m.stateLines m

end Access

/-! ## Reading a source and declaring -/

section Configuration

variable (m : Machine)

theorem deeds_scan (source : String) : Deeds P m (m.scan source).1 := by
  have hnotes (notes : List Note) (start : Machine) : Deeds P start (notes.foldl note start) := by
    induction notes generalizing start with
    | nil => exact .refl
    | cons n rest ih =>
      cases n with
      | error d => exact .head (.report d false) (ih _)
      | trace t => exact .head (.log (.traced t) rfl) (ih _)
  exact .head (.bindLabels _) (hnotes _ _)

theorem deeds_load (source : String) : Deeds P m (m.load source).1 := by
  have hscan : Deeds P m (m.scan source).1 := m.deeds_scan source
  rw [load]
  split
  all_goals
    rename_i hresult
    rw [hresult] at hscan
    exact hscan.tail (.hold _)

theorem deed_of_insertRegister {m later : Machine} {name : String}
    (h : m.insertRegister name = .ok later) : Deed P m later := by
  obtain ⟨hthawed, hvalid, hnew, rfl⟩ := insertRegister_eq_ok_iff.mp h
  exact .declare name hthawed hvalid hnew

theorem changes_insertRegisters (names : List String) : Changes P m (m.insertRegisters names).1 := by
  induction names generalizing m with
  | nil => exact .refl
  | cons name rest ih =>
    rw [insertRegisters]
    split
    · exact .refl
    · rename_i later hlater
      exact .head (.deed (deed_of_insertRegister hlater)) (ih later)

theorem deed_of_insertInstruction {m later : Machine} {i : Instruction}
    (hi : m.frozen = false → i.Within P) (h : m.insertInstruction i = .ok later) : Deed P m later := by
  rw [insertInstruction, InstructionSet.add] at h
  split at h
  · cases h
  · rename_i hfrozen
    have hthawed : m.frozen = false := eq_false_of_ne_true hfrozen
    by_cases hnew : m.instructions.has i.name = true
    · rw [if_pos hnew] at h
      cases h
    · rw [if_neg hnew] at h
      cases h
      exact .install i hthawed (eq_false_of_ne_true hnew) (hi hthawed)

/-- A frozen machine takes no instruction, whatever its script. -/
theorem deeds_insertInstructions {is : List Instruction}
    (his : m.frozen = false → ∀ i ∈ is, i.Within P) : Deeds P m (m.insertInstructions is).1 := by
  induction is generalizing m with
  | nil => exact .refl
  | cons i rest ih =>
    rw [insertInstructions]
    split
    · exact .refl
    · rename_i later hlater
      have hfirst := deed_of_insertInstruction (fun hthawed => his hthawed i List.mem_cons_self) hlater
      refine .head hfirst (ih later fun hthawed j hj => ?_)
      exact his (hfirst.thawed hthawed) j (List.mem_cons_of_mem _ hj)

theorem changes_insertInstructions {is : List Instruction} (his : ∀ i ∈ is, i.Within P) :
    Changes P m (m.insertInstructions is).1 :=
  (m.deeds_insertInstructions fun _ => his).changes

end Configuration

/-! ## Executing instructions -/

section Operation

variable (m : Machine)

theorem deeds_arithmetic (op : Int → Int → Int) (target left right : Value) :
    Deeds P m (Operation.arithmetic op target left right m).1 := by
  rw [Operation.arithmetic, readInt_eq]
  cases left.integer m.registers with
  | error d => exact m.deeds_report d true
  | ok a =>
    simp only [readInt_eq]
    cases right.integer m.registers with
    | error d => exact m.deeds_report d true
    | ok b => exact m.deeds_writeInt target _

theorem deeds_emitTexts (arguments : List Value) :
    Deeds P m (Operation.emitTexts arguments m) := by
  rw [Operation.emitTexts, Operation.readTexts_eq]
  cases Effect.texts m.registers arguments with
  | error d => exact m.deeds_report d true
  | ok texts => exact .single (.emit _)

theorem deeds_jumpIf (condition : Int → Bool) (operand label : Value) :
    Deeds P m (Operation.jumpIf condition operand label m) := by
  rw [Operation.jumpIf, readInt_eq]
  cases operand.integer m.registers with
  | error d => exact m.deeds_report d true
  | ok n =>
    simp only
    split
    · exact m.deeds_jumpToLabel label
    · exact .refl

theorem deeds_operation (operation : Operation) (arguments : List Value) :
    Deeds P m (operation.perform arguments m).1 := by
  fun_cases Operation.perform operation arguments m
  case case2 => exact m.deeds_write _ _
  case case9 => exact m.deeds_jumpToLabel _
  case case10 => exact m.deeds_jumpToValue _
  case case11 | case12 => exact m.deeds_jumpIf _ _ _
  case case13 => exact m.deeds_emitTexts _
  case case14 => exact .single .halt
  case case1 | case15 => exact .refl
  all_goals exact m.deeds_arithmetic _ _ _ _

end Operation

section Script

variable {m : Machine} {arguments : List Value}

theorem deeds_withOperand {o : Operand} {step : Value → Machine × Except Fault Flow}
    (hstep : ∀ v, Deeds P m (step v).1) : Deeds P m (m.withOperand arguments o step).1 := by
  rw [withOperand]
  split
  · exact .refl
  · exact .refl
  · exact hstep _

theorem deeds_withOperands {os : List Operand} {step : List Value → Machine × Except Fault Flow}
    (hstep : ∀ vs, Deeds P m (step vs).1) : Deeds P m (m.withOperands arguments os step).1 := by
  induction os generalizing step with
  | nil => exact hstep []
  | cons o rest ih => exact deeds_withOperand fun v => ih fun vs => hstep (v :: vs)

theorem deeds_withInt {o : Operand} {step : Machine → Int → Machine × Except Fault Flow}
    (hstep : ∀ n, Deeds P m (step m n).1) : Deeds P m (m.withInt arguments o step).1 := by
  refine deeds_withOperand fun v => ?_
  rw [readInt_eq]
  cases v.integer m.registers with
  | error d => exact m.deeds_report d true
  | ok n => exact hstep n

theorem deeds_withInstruction {name : String} {step : Instruction → Machine × Except Fault Flow}
    (hstep : ∀ i, m.instructions.get? name = some i → Deeds P m (step i).1) :
    Deeds P m (m.withInstruction name step).1 := by
  rw [withInstruction]
  split
  · exact .refl
  · exact hstep _ ‹_›

/-- A way to execute instructions that does only permitted deeds. What a permitted action declares is
of no concern to a frozen machine. -/
def Call.Within (P : Action → Prop) (call : Call) : Prop :=
  ∀ i arguments m, (m.frozen = false → Action.Hereditary P) → i.Within P → m.Within P →
    Deeds P m (call i arguments m).1

theorem deeds_perform (hP : m.frozen = false → Action.Hereditary P) {call : Call}
    (hcall : Call.Within P call) (hm : m.Within P) {action : Action} (haction : P action) :
    Deeds P m (m.perform call arguments action).1 := by
  cases action with
  | insertRegister name =>
    simp only [perform]
    split
    · exact .refl
    · exact .single (deed_of_insertRegister ‹_›)
  | insertInstruction d =>
    simp only [perform]
    split
    · exact .refl
    · rename_i i hi
      refine m.deeds_insertInstructions fun hthawed => ?_
      exact List.forall_mem_singleton.mpr
        (Instruction.within_of_ofDeclaration (fun _ => (hP hthawed).single haction) hi)
  | insertInstructions ds =>
    simp only [perform]
    split
    · exact .refl
    · rename_i is his
      refine m.deeds_insertInstructions fun hthawed i hi => ?_
      obtain ⟨d, hd, hdeclared⟩ := Instruction.exists_of_mem_ofDeclarations his hi
      exact Instruction.within_of_ofDeclaration (fun _ => (hP hthawed).several haction hd) hdeclared
  | insertStandard =>
    exact m.deeds_insertInstructions fun _ _ => Instruction.within_of_mem_standard
  | load source => exact m.deeds_load source
  | listing =>
    simp only [perform]
    split <;> exact .refl
  | reset => exact .single (.reset haction)
  | halt => exact .single .halt
  | emit text => exact .single (.emit text)
  | report message halting => exact m.deeds_report _ halting
  | dump => exact m.deeds_dump
  | read o => exact deeds_withOperand fun v => m.deeds_read v
  | readInt o => exact deeds_withOperand fun v => m.deeds_readInt v
  | write target written =>
    cases written with
    | operand o =>
      exact deeds_withOperand fun target => deeds_withOperand fun v => m.deeds_write target v
    | integer n => exact deeds_withOperand fun target => m.deeds_writeInt target n
  | jump index => exact m.deeds_jump index
  | jumpToValue o => exact deeds_withOperand fun v => m.deeds_jumpToValue v
  | jumpToLabel o => exact deeds_withOperand fun v => m.deeds_jumpToLabel v
  | assign name o => exact deeds_withOperand fun v => .single (.assign name o v haction)
  | accepts name counts => exact deeds_withInstruction fun i _ => .refl
  | execute name operands =>
    exact deeds_withInstruction fun i hi =>
      deeds_withOperands fun values => hcall i values m hP (hm name i hi) hm
  | add target left right =>
    exact deeds_withInt fun a => deeds_withInt fun b =>
      deeds_withOperand fun target => m.deeds_writeInt target (a + b)
  | stopUnlessLess left right => exact deeds_withInt fun a => deeds_withInt fun b => .refl

theorem deeds_follow (hP : m.frozen = false → Action.Hereditary P) {call : Call}
    (hcall : Call.Within P call) (hm : m.Within P) {script : Script}
    (hscript : ∀ action ∈ script, P action) :
    Deeds P m (follow call arguments script m).1 := by
  induction script generalizing m with
  | nil => exact .refl
  | cons action rest ih =>
    have hfirst : Deeds P m (m.perform call arguments action).1 :=
      deeds_perform hP hcall hm (hscript action List.mem_cons_self)
    rw [follow]
    generalize m.perform call arguments action = result at hfirst ⊢
    rcases result with ⟨later, fault | stop | reply⟩
    · exact hfirst
    · exact hfirst
    · exact hfirst.trans (ih (fun hthawed => hP (hfirst.thawed hthawed)) (hfirst.changes.within hm)
        fun action haction => hscript action (List.mem_cons_of_mem _ haction))

/-- The induction is on the scripts that may still be called inside one another. -/
theorem within_executeWithin (depth : Nat) : Call.Within P (executeWithin depth) := by
  induction depth with
  | zero =>
    intro i arguments m hP hi hm
    rw [executeWithin]
    split
    · split
      · exact m.deeds_operation _ arguments
      · exact .refl
    · exact m.deeds_reportShowing _ _
  | succ depth ih =>
    intro i arguments m hP hi hm
    rw [executeWithin]
    split
    · split
      · exact m.deeds_operation _ arguments
      · rename_i steps hsteps
        have hlogged : Deed P m (m.log (.called i.name arguments)) := .log _ rfl
        exact .head hlogged (deeds_follow (fun hthawed => hP (hlogged.thawed hthawed)) ih
          (hlogged.within hm) (hi steps hsteps))
    · exact m.deeds_reportShowing _ _

end Script

end Machine

/-! ## Running a program -/

namespace Run

open Machine (Changes)

variable {P : Action → Prop} {program : Array Token} {r next : Run}

structure Within (P : Action → Prop) (r : Run) : Prop where
  machine : r.machine.Within P
  pending : ∀ i, r.pending = some i → i.Within P

theorem within_start {m : Machine} (hm : m.Within P) : m.start.Within P :=
  ⟨hm, nofun⟩

/-- A machine has come where it is by permitted changes, and can go on. -/
def Reaches (P : Action → Prop) (m : Machine) : Progress → Prop
  | .next r => Changes P m r.machine ∧ r.Within P
  | .ended later _ => Changes P m later

theorem Within.reaches {later : Machine} {pending : Option Instruction} (hr : r.Within P)
    (h : Changes P r.machine later) (hpending : ∀ i, pending = some i → i.Within P)
    (operands : List Value) : Reaches P r.machine (.next ⟨later, pending, operands⟩) :=
  ⟨h, h.within hr.machine, hpending⟩

theorem reaches_take (hP : Action.Hereditary P) (hr : r.Within P) (token : Token) :
    Reaches P r.machine (r.take token) := by
  have hready : Changes P r.machine r.ready := .single .settle
  have hidle : ∀ i, (none : Option Instruction) = some i → i.Within P := nofun
  obtain ⟨m, pending, operands⟩ := r
  cases pending with
  | none =>
    cases token with
    | instruction name =>
      simp only [take]
      split
      · exact hr.reaches (hready.tail (.deed (.report _ true))) hidle operands
      · rename_i i hi
        refine hr.reaches (hready.tail .advance) ?_ []
        rintro j ⟨⟩
        exact hr.machine name i hi
    | value v => exact hr.reaches (hready.tail (.deed (.report _ true))) hidle operands
    | register name =>
      exact hr.reaches ((hready.tail (.deed (.report _ false))).tail .advance) hidle operands
    | statementEnd => exact hr.reaches (hready.tail .advance) hidle operands
  | some i =>
    cases token with
    | instruction name => exact hr.reaches (hready.tail (.deed (.report _ true))) hr.pending operands
    | value v => exact hr.reaches (hready.tail .advance) hr.pending (operands ++ [v])
    | register name =>
      simp only [take]
      split
      · exact hr.reaches (hready.tail .advance) hr.pending (operands ++ [.register name])
      · exact hr.reaches (hready.tail (.deed (.report _ true))) hr.pending operands
    | statementEnd =>
      have hexecuted := (Machine.within_executeWithin Machine.callLimit i operands
        (Run.ready ⟨m, some i, operands⟩) (fun _ => hP) (hr.pending i rfl) hr.machine).changes
      rw [take_of_pending rfl, Machine.execute]
      generalize Machine.executeWithin Machine.callLimit i operands _ = result at hexecuted ⊢
      rcases result with ⟨later, fault | ⟨⟩⟩
      · exact hready.trans hexecuted
      · refine hr.reaches (hready.trans (hexecuted.trans ?_)) hidle []
        split
        · exact .refl
        · exact .single .advance

theorem reaches_step (hP : Action.Hereditary P) (hr : r.Within P) :
    Reaches P r.machine (r.step program) := by
  rw [step]
  split
  · exact .refl
  · split
    · exact .refl
    · exact reaches_take hP hr _

end Run

end LineAssembly
