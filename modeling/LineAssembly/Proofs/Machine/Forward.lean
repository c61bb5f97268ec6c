import LineAssembly.Proofs.Machine.Turn

/-! # Runs whose jumps go forward

A token that is refused leaves the cursor where it is and halts the machine. So a run on which every jump
goes forward has its cursor further on after each step, or it is halted. Main statement: such a run ends
within as many steps as it has tokens, and one more to see that it has ended.
-/

set_option autoImplicit false

namespace LineAssembly

/-- An execution that leaves the cursor alone or jumps forward, and never clears a halt. -/
structure Machine.Forward (m later : Machine) : Prop where
  place : later.jumped = false ∧ later.cursor = m.cursor ∨
    later.jumped = true ∧ m.cursor < later.cursor
  halted : m.halted = true → later.halted = true

namespace Run

variable {program : Array Token} {r s next : Run} {n : Nat}

/-- Whatever is invoked on the way returns, and goes forward. -/
def GoesForward (program : Array Token) (r : Run) : Prop :=
  ∀ n s call, Steps program n r s → s.Invokes program call →
    ∃ later, s.ready.execute call.instruction call.arguments = (later, .ok ()) ∧ s.ready.Forward later

theorem cursor_lt_continued {m later : Machine} (h : m.Forward later) :
    m.cursor < (continued later).machine.cursor := by
  obtain ⟨hjumped, hcursor⟩ | ⟨hjumped, hcursor⟩ := h.place
  · rw [Statement.cursor_continued hjumped]
    omega
  · simpa [continued, hjumped] using hcursor

theorem GoesForward.turn (h : r.GoesForward program) (hs : Steps program n r s)
    (hturn : Turn program s next) :
    next.machine.halted = true ∨ s.machine.cursor < next.machine.cursor := by
  cases hturn with
  | refuses fetches refuses result =>
    rw [result]
    exact .inl rfl
  | passes fetches advances collects =>
    rw [advances.cursor]
    exact .inr (Nat.lt_succ_self _)
  | @invokes call later invokes executed result =>
    obtain ⟨later', hexecuted, hlater⟩ := h n s call hs invokes
    cases executed.symm.trans hexecuted
    have hcursor : s.ready.cursor < (continued later).machine.cursor := cursor_lt_continued hlater
    rw [result]
    exact .inr hcursor

/-- Only the last step of a run can leave the cursor where it was. -/
theorem GoesForward.cursor (h : r.GoesForward program) (hs : Steps program n r s) :
    s.machine.halted = true ∨ r.machine.cursor + n ≤ s.machine.cursor := by
  induction n generalizing s with
  | zero =>
    cases hs
    exact .inr (Nat.le_refl _)
  | succ n ih =>
    obtain ⟨b, hb, hstep⟩ := hs.exists_last
    have hrunning : b.machine.halted = false := (exists_token_of_step hstep).1
    obtain hhalted | hbefore := ih hb
    · rw [hrunning] at hhalted
      cases hhalted
    · obtain hhalted | hafter := h.turn hb (turn_of_step hstep)
      · exact .inl hhalted
      · exact .inr (by omega)

theorem GoesForward.ended {final : Machine} {result : Except Fault Unit} (h : r.GoesForward program)
    (hs : Steps program n r s) (hend : s.step program = .ended final result) : result = .ok () := by
  obtain ⟨-, hresult, -⟩ | ⟨call, fault, hinvokes, -, hfault⟩ := ended_cases hend
  · exact hresult
  · obtain ⟨later, hexecuted, -⟩ := h n s call hs hinvokes
    cases hfault.symm.trans hexecuted

/-- A run has ended within a number of steps, or has taken them all. -/
theorem GoesForward.ended_or_steps (h : r.GoesForward program) (n : Nat) :
    (∃ k < n, ∃ last final, Steps program k r last ∧ last.step program = .ended final (.ok ())) ∨
      ∃ s, Steps program n r s := by
  induction n with
  | zero => exact .inr ⟨r, .refl r⟩
  | succ n ih =>
    obtain ⟨k, hk, hended⟩ | ⟨s, hs⟩ := ih
    · exact .inl ⟨k, by omega, hended⟩
    · cases hstep : s.step program with
      | next after => exact .inr ⟨after, hs.trans (.single hstep)⟩
      | ended final result =>
        cases h.ended hs hstep
        exact .inl ⟨n, by omega, s, final, hs, hstep⟩

theorem GoesForward.exists_ended (h : r.GoesForward program) :
    ∃ n ≤ program.size, ∃ last final, Steps program n r last ∧
      last.step program = .ended final (.ok ()) := by
  -- After as many steps as there are tokens, no token can be left in front of the cursor.
  obtain ⟨n, hn, hended⟩ | ⟨s, hs⟩ := h.ended_or_steps program.size
  · exact ⟨n, by omega, hended⟩
  · refine ⟨program.size, Nat.le_refl _, s, s.machine, hs, ?_⟩
    obtain hhalted | hcursor := h.cursor hs
    · exact step_of_halted hhalted
    · exact step_of_past (by omega)

end Run

/-! ## Where the standard instructions jump to -/

section Targets

variable (registers : Table Value) (labels : Table Nat)

def Value.labelIndex? (v : Value) : Option Nat :=
  match v.resolve registers with
  | some (.label name) => labels.get? name
  | _ => none

def Value.tokenIndex? (v : Value) : Option Nat :=
  match v.resolve registers with
  | some (.int n) => if 0 ≤ n.toInt then some n.toInt.toNat else none
  | _ => none

/-- The index that an operation jumps to, if it jumps. -/
def Operation.target? : Operation → List Value → Option Nat
  | .jmp, label :: _ => label.labelIndex? registers labels
  | .jv, v :: _ => v.tokenIndex? registers
  | .jz, _ :: label :: _ | .jnz, _ :: label :: _ => label.labelIndex? registers labels
  | _, _ => none

def Instruction.target? (i : Instruction) (arguments : List Value) : Option Nat :=
  match i.body with
  | .standard operation => operation.target? registers labels arguments
  | .script _ => none

end Targets

namespace Effect

variable {registers : Table Value} {labels : Table Nat} (target : Option Nat)

/-- An effect that jumps to the target, if it jumps. -/
def Aims : Effect → Prop
  | .goto index => target = some index
  | _ => True

theorem aims_assignment (destination v : Value) :
    (settle (assignment registers destination v)).Aims target := by
  rw [assignment]
  cases destination.target registers with
  | error d => trivial
  | ok name => cases v.found registers <;> trivial

theorem aims_arithmetic (op : Int → Int → Int) (destination left right : Value) :
    (settle (arithmetic registers op destination left right)).Aims target := by
  rw [arithmetic]
  cases left.integer registers with
  | error d => trivial
  | ok a =>
    cases right.integer registers with
    | error d => trivial
    | ok b => cases destination.target registers <;> trivial

theorem aims_printing (arguments : List Value) :
    (settle (printing registers arguments)).Aims target := by
  rw [printing]
  cases texts registers arguments <;> trivial

theorem aims_toLabel (v : Value) :
    (settle (toLabel registers labels v)).Aims (v.labelIndex? registers labels) := by
  rw [toLabel, Value.labelIndex?]
  rcases v.resolve registers with _ | (n | name | name | _)
  case some.label =>
    simp only
    cases labels.get? name with
    | none => trivial
    | some index => exact rfl
  all_goals trivial

theorem aims_toValue (v : Value) : (settle (toValue registers v)).Aims (v.tokenIndex? registers) := by
  rw [toValue, Value.tokenIndex?]
  rcases v.resolve registers with _ | (n | name | name | _)
  case some.int =>
    simp only
    split
    · exact rfl
    · trivial
  all_goals trivial

theorem aims_conditional (condition : Int → Bool) (operand label : Value) :
    (settle (conditional registers labels condition operand label)).Aims
      (label.labelIndex? registers labels) := by
  rw [conditional]
  cases operand.integer registers with
  | error d => trivial
  | ok n =>
    change (settle (if condition n then toLabel registers labels label else .ok .pass)).Aims _
    split
    · exact aims_toLabel label
    · trivial

end Effect

theorem Operation.aims_of_effect {registers : Table Value} {labels : Table Nat} {operation : Operation}
    {arguments : List Value} {e : Effect}
    (h : operation.effect registers labels arguments = some e) :
    e.Aims (operation.target? registers labels arguments) := by
  revert h
  fun_cases Operation.effect registers labels operation arguments <;> rintro ⟨⟩
  case case1 | case14 => trivial
  case case2 => exact Effect.aims_assignment _ _ _
  case case9 => exact Effect.aims_toLabel _
  case case10 => exact Effect.aims_toValue _
  case case11 | case12 => exact Effect.aims_conditional _ _ _
  case case13 => exact Effect.aims_printing _ _
  all_goals exact Effect.aims_arithmetic _ _ _ _ _

namespace Instruction

variable {i : Instruction}

theorem target?_eq_none_of_name (hi : i ∈ standard) (hname : i.name ∉ ["JMP", "JV", "JZ", "JNZ"])
    (registers : Table Value) (labels : Table Nat) (arguments : List Value) :
    i.target? registers labels arguments = none := by
  simp only [standard, List.mem_cons, List.not_mem_nil, or_false] at hi
  rcases hi with rfl | rfl | rfl | rfl | rfl | rfl | rfl | rfl | rfl | rfl | rfl <;>
    simp [target?, Operation.target?] at hname ⊢

theorem aims_effect (hi : i ∈ standard) (registers : Table Value) (labels : Table Nat)
    (arguments : List Value) :
    (i.effect registers labels arguments).Aims (i.target? registers labels arguments) := by
  obtain ⟨-, operation, hbody, heffect⟩ | ⟨-, heffect⟩ := effect_cases hi registers labels arguments
  · rw [target?, hbody]
    exact Operation.aims_of_effect heffect
  · rw [heffect]
    trivial

/-- A standard instruction goes forward unless it jumps, and a jump does if its target is ahead. -/
theorem forward_execute (hi : i ∈ standard) {m : Machine} (hjumped : m.jumped = false)
    {arguments : List Value}
    (htarget : ∀ index, i.target? m.registers m.labels arguments = some index → m.cursor < index) :
    ∃ later, m.execute i arguments = (later, .ok ()) ∧ m.Forward later := by
  refine ⟨_, Machine.execute_standard hi m arguments, ?_⟩
  have haims := aims_effect hi m.registers m.labels arguments
  cases heffect : i.effect m.registers m.labels arguments with
  | goto index =>
    rw [heffect] at haims
    exact ⟨.inr ⟨rfl, htarget index haims⟩, id⟩
  | pass | store | emit => exact ⟨.inl ⟨hjumped, rfl⟩, id⟩
  | stop | fail => exact ⟨.inl ⟨hjumped, rfl⟩, fun _ => rfl⟩

end Instruction

namespace Machine

open Run (Steps)

/-- A run whose jumps go forward ends, takes at most one step for each token, and takes no token twice.
Every standard instruction goes forward but for the jumps, and these do if their target is ahead. -/
theorem run_of_goesForward (m : Machine) (tokens : List Token)
    (hforward : m.start.GoesForward tokens.toArray) :
    (∃ n ≤ tokens.length, ∃ last final, Steps tokens.toArray n m.start last ∧
      last.step tokens.toArray = .ended final (.ok ()) ∧
      m.run (tokens.length + 1) tokens = some (final, .ok ())) ∧
    (∀ n k r s token token', Steps tokens.toArray n m.start r → Steps tokens.toArray (k + 1) r s →
      r.Fetches tokens.toArray token → s.Fetches tokens.toArray token' →
      r.machine.cursor < s.machine.cursor) ∧
    ∀ i ∈ Instruction.standard, ∀ (other : Machine) (arguments : List Value), other.jumped = false →
      (i.name ∉ ["JMP", "JV", "JZ", "JNZ"] ∨
        ∀ index, i.target? other.registers other.labels arguments = some index →
          other.cursor < index) →
      ∃ later, other.execute i arguments = (later, .ok ()) ∧ other.Forward later := by
  refine ⟨?_, ?_, ?_⟩
  · obtain ⟨n, hn, last, final, hsteps, hend⟩ := hforward.exists_ended
    rw [List.size_toArray] at hn
    refine ⟨n, hn, last, final, hsteps, hend, ?_⟩
    have hfuel : tokens.length + 1 = n + (tokens.length - n + 1) := by omega
    rw [run, hfuel, hsteps.upTo_add]
    exact Run.upTo_of_ended hend
  · intro n k r s token token' hr hs hfetches hfetches'
    have hrest : r.GoesForward tokens.toArray := fun j t call ht => hforward (n + j) t call (hr.trans ht)
    obtain hhalted | hcursor := hrest.cursor hs
    · rw [hfetches'.running] at hhalted
      cases hhalted
    · omega
  · intro i hi other arguments hjumped hahead
    refine Instruction.forward_execute hi hjumped fun index hindex => ?_
    obtain hname | htarget := hahead
    · rw [Instruction.target?_eq_none_of_name hi hname] at hindex
      cases hindex
    · exact htarget index hindex

def leapingMachine : Machine :=
  { standard with labels := [("end", 4)] }

/-- A jump over a stray end to a stray value. -/
def leaping : List Token :=
  [.instruction "JMP", .value (.label "end"), .statementEnd, .statementEnd, .value (.int 9)]

theorem run_of_goesForward_leaping :
    leapingMachine.start.GoesForward leaping.toArray ∧
      ∃ final, leapingMachine.run 6 leaping = some (final, .ok ()) ∧ final.cursor = 4 ∧
        final.diagnostics = #[.token 4 (.strayValue (.int 9))] := by
  have hforward : leapingMachine.start.GoesForward leaping.toArray := by
    rintro n s ⟨index, instruction, arguments⟩ hsteps ⟨⟨hrunning, hfound⟩, -, hpending, hoperands⟩
    obtain _ | ⟨hmnemonic, _ | ⟨hlabel, _ | ⟨hend, _ | ⟨hvalue, _ | ⟨hpast, -⟩⟩⟩⟩⟩ := hsteps
    · cases hpending
    · cases hmnemonic
      cases hfound
    · cases hmnemonic
      cases hlabel
      cases hpending
      cases hoperands
      exact ⟨_, rfl, .inr ⟨rfl, by decide⟩, id⟩
    · cases hmnemonic
      cases hlabel
      cases hend
      cases hfound
    · cases hmnemonic
      cases hlabel
      cases hend
      cases hvalue
      cases hrunning
    · cases hmnemonic
      cases hlabel
      cases hend
      cases hvalue
      cases hpast
  obtain ⟨⟨n, -, last, final, -, -, hrun⟩, -⟩ := run_of_goesForward leapingMachine leaping hforward
  refine ⟨hforward, final, hrun, ?_⟩
  cases hrun
  exact ⟨rfl, rfl⟩

end Machine

end LineAssembly
