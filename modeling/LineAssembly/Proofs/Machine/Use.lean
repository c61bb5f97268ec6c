import LineAssembly.Proofs.Machine.Change

/-! # Uses of a machine

A machine is used by its host, by the scripts of its instructions and by the runs of programs. A request
of a host is answered by a few uses, and every use by changes. So what is shown of every use, or of every
change, holds between any two moments of a session, also inside a run.
-/

set_option autoImplicit false

namespace LineAssembly

def Progress.machine : Progress → Machine
  | .next r => r.machine
  | .ended m _ => m

namespace Machine

variable {P : Action → Prop}

/-- One use of a machine. A request is a use or several: an action of a script counts as much as one of
the host, and a run counts step by step, whether it ends or not. -/
inductive Use (P : Action → Prop) (m : Machine) : Machine → Prop where
  | act (depth : Nat) (arguments : List Value) {action : Action} (permitted : P action) :
    Use P m (m.perform (executeWithin depth) arguments action).1
  | insertRegisters (names : List String) : Use P m (m.insertRegisters names).1
  | insertInstructions {is : List Instruction} (permitted : ∀ i ∈ is, i.Within P) :
    Use P m (m.insertInstructions is).1
  | scan (source : String) : Use P m (m.scan source).1
  | log (e : Event) (aside : e.isAside = true) : Use P m (m.log e)
  | start : Use P m m.start.machine
  | step (program : Array Token) {pending : Option Instruction} (operands : List Value)
    (permitted : ∀ i, pending = some i → i.Within P) :
    Use P m (Run.step program ⟨m, pending, operands⟩).machine

abbrev Uses (P : Action → Prop) : Machine → Machine → Prop :=
  Relation.ReflTransGen (Use P)

theorem Use.changes (hP : Action.Hereditary P) {m later : Machine} (h : Use P m later)
    (hm : m.Within P) : Changes P m later := by
  cases h with
  | act depth arguments permitted =>
    exact (deeds_perform (fun _ => hP) (within_executeWithin depth) hm permitted).changes
  | insertRegisters names => exact m.changes_insertRegisters names
  | insertInstructions permitted => exact m.changes_insertInstructions permitted
  | scan source => exact (m.deeds_scan source).changes
  | log e aside => exact .single (.deed (.log e aside))
  | start => exact .single .start
  | @step program pending operands permitted =>
    have hr : Run.Within P ⟨m, pending, operands⟩ := ⟨hm, permitted⟩
    have hreaches : Run.Reaches P m (Run.step program ⟨m, pending, operands⟩) :=
      Run.reaches_step hP hr
    revert hreaches
    cases Run.step program ⟨m, pending, operands⟩ with
    | next r => exact And.left
    | ended final result => exact id

theorem Uses.changes (hP : Action.Hereditary P) {m later : Machine} (h : Uses P m later)
    (hm : m.Within P) : Changes P m later := by
  induction h with
  | refl => exact .refl
  | tail _ last ih => exact ih.trans (last.changes hP (ih.within hm))

end Machine

namespace Run

open Machine (Changes Use Uses)

variable {P : Action → Prop} {program : Array Token} {r next : Run}

theorem Steps.uses (hP : Action.Hereditary P) {n : Nat} (h : Steps program n r next)
    (hr : r.Within P) : Uses P r.machine next.machine ∧ next.Within P := by
  induction h with
  | refl r => exact ⟨.refl, hr⟩
  | @head n a b c first _ ih =>
    have huse : Use P a.machine (a.step program).machine := .step program a.operands hr.pending
    have hreaches : Reaches P a.machine (a.step program) := reaches_step hP hr
    rw [first] at huse hreaches
    obtain ⟨hrest, hc⟩ := ih hreaches.2
    exact ⟨hrest.head huse, hc⟩

theorem Steps.changes (hP : Action.Hereditary P) {n : Nat} (h : Steps program n r next)
    (hr : r.Within P) : Changes P r.machine next.machine ∧ next.Within P := by
  obtain ⟨huses, hnext⟩ := h.uses hP hr
  exact ⟨huses.changes hP hr.machine, hnext⟩

theorem uses_upTo (hP : Action.Hereditary P) (hr : r.Within P) {fuel : Nat}
    {answer : Machine × Except Fault Unit} (h : upTo program fuel r = some answer) :
    Uses P r.machine answer.1 := by
  obtain ⟨n, last, hsteps, hended⟩ := exists_steps_of_upTo h
  obtain ⟨hlast, hwithin⟩ := hsteps.uses hP hr
  have huse : Use P last.machine (last.step program).machine := .step program last.operands hwithin.pending
  rw [hended] at huse
  exact hlast.tail huse

end Run

/-- A request with a permitted action, or to run a program. -/
def Request.Within (P : Action → Prop) : Request → Prop
  | .act action => P action
  | .run _ | .interpret _ => True

namespace Machine

variable {P : Action → Prop} {m : Machine} {fuel : Nat}

theorem uses_run (hP : Action.Hereditary P) (hm : m.Within P) {tokens : List Token}
    {answer : Machine × Except Fault Unit} (h : m.run fuel tokens = some answer) :
    Uses P m.start.machine answer.1 :=
  Run.uses_upTo hP (Run.within_start hm) h

theorem changes_run (hP : Action.Hereditary P) (hm : m.Within P) {tokens : List Token}
    {answer : Machine × Except Fault Unit} (h : m.run fuel tokens = some answer) :
    Changes P m answer.1 :=
  .head .start ((uses_run hP hm h).changes hP hm)

theorem uses_interpret (hP : Action.Hereditary P) (hm : m.Within P) {source : String}
    {answer : Machine × Except Fault Unit} (h : m.interpret fuel source = some answer) :
    Uses P (m.scan source).1 answer.1 := by
  have hscan : (m.scan source).1.Within P := (m.deeds_scan source).changes.within hm
  rw [interpret] at h
  generalize m.scan source = result at h hscan ⊢
  rcases result with ⟨scanned, fault | tokens⟩
  · cases h
    exact .refl
  · simp only at h
    split at h
    · cases h
      exact .single (.log _ rfl)
    · exact (uses_run hP hscan h).head .start

theorem changes_interpret (hP : Action.Hereditary P) (hm : m.Within P) {source : String}
    {answer : Machine × Except Fault Unit} (h : m.interpret fuel source = some answer) :
    Changes P m answer.1 :=
  Uses.changes hP ((uses_interpret hP hm h).head (.scan source)) hm

theorem uses_serve (hP : Action.Hereditary P) (hm : m.Within P) {q : Request} (hq : q.Within P)
    {answer : Machine × Except Fault Reply} (h : m.serve fuel q = some answer) :
    Uses P m answer.1 := by
  cases q with
  | act action =>
    have hact : Use P m (m.perform (executeWithin callLimit) [] action).1 := .act callLimit [] hq
    rw [serve] at h
    generalize m.perform (executeWithin callLimit) [] action = result at h hact
    rcases result with ⟨later, fault | stop | reply⟩ <;> cases h <;> exact .single hact
  | run tokens =>
    obtain ⟨result, hresult, rfl⟩ := Option.map_eq_some_iff.mp h
    have hrun := (uses_run hP hm hresult).head .start
    rcases result with ⟨later, fault | ⟨⟩⟩ <;> exact hrun
  | interpret source =>
    obtain ⟨result, hresult, rfl⟩ := Option.map_eq_some_iff.mp h
    have hinterpret := (uses_interpret hP hm hresult).head (.scan source)
    rcases result with ⟨later, fault | ⟨⟩⟩ <;> exact hinterpret

theorem uses_serveAll (hP : Action.Hereditary P) (hm : m.Within P) {requests : List Request}
    (hrequests : ∀ q ∈ requests, q.Within P) {later : Machine}
    (h : m.serveAll fuel requests = some later) : Uses P m later := by
  induction requests generalizing m with
  | nil =>
    cases h
    exact .refl
  | cons q rest ih =>
    obtain ⟨answer, hanswer, hrest⟩ := Option.bind_eq_some_iff.mp h
    have hfirst := uses_serve hP hm (hrequests q List.mem_cons_self) hanswer
    exact hfirst.trans
      (ih ((hfirst.changes hP hm).within hm) (fun q hq => hrequests q (List.mem_cons_of_mem _ hq)) hrest)

theorem changes_serveAll (hP : Action.Hereditary P) (hm : m.Within P) {requests : List Request}
    (hrequests : ∀ q ∈ requests, q.Within P) {later : Machine}
    (h : m.serveAll fuel requests = some later) : Changes P m later :=
  (uses_serveAll hP hm hrequests h).changes hP hm

end Machine

end LineAssembly
