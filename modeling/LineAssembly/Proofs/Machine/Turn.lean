import LineAssembly.Proofs.Machine.Choice
import LineAssembly.Proofs.Statement.Run

/-! # One turn of a run

A turn fetches the token at the cursor. It refuses the token and halts where it is, or passes it and moves
on by one index, or invokes the pending instruction at the end of a statement. Only what is invoked can
halt the machine behind the token, or jump.
-/

set_option autoImplicit false

namespace LineAssembly

/-- An instruction as the end of a statement invokes it. -/
structure Invocation where
  index : Nat
  instruction : Instruction
  arguments : List Value

namespace Run

variable {program : Array Token} {r next last : Run} {token : Token} {call : Invocation} {n fuel : Nat}

structure Fetches (program : Array Token) (r : Run) (token : Token) : Prop where
  running : r.machine.halted = false
  found : program[r.machine.cursor]? = some token

theorem Fetches.lt_size (h : r.Fetches program token) : r.machine.cursor < program.size := by
  obtain ⟨hlt, -⟩ := Array.getElem?_eq_some_iff.mp h.found
  exact hlt

/-- The errors about a token that halt the machine. -/
inductive Refuses (r : Run) : Token → TokenError → Prop where
  | clash {i : Instruction} (name : String) (pending : r.pending = some i) :
    Refuses r (.instruction name) (.clash name i.name)
  | unknown (name : String) (idle : r.pending = none)
    (absent : r.machine.instructions.get? name = none) :
    Refuses r (.instruction name) (.unknownInstruction name)
  | stray (v : Value) (idle : r.pending = none) : Refuses r (.value v) (.strayValue v)
  | undeclared {i : Instruction} (name : String) (pending : r.pending = some i)
    (absent : r.machine.registers.has name = false) :
    Refuses r (.register name) (.undeclaredRegister name)

structure Invokes (program : Array Token) (r : Run) (call : Invocation) : Prop where
  fetches : r.Fetches program .statementEnd
  index : r.machine.cursor = call.index
  pending : r.pending = some call.instruction
  operands : r.operands = call.arguments

/-- The machine that a token leaves behind which is neither refused nor invokes anything. -/
structure Advances (m later : Machine) : Prop where
  cursor : later.cursor = m.cursor + 1
  jumped : later.jumped = false
  halted : later.halted = m.halted
  frozen : later.frozen = m.frozen
  instructions : later.instructions = m.instructions

/-- What such a token does to the statement that is being collected. -/
inductive Collects (program : Array Token) (r next : Run) : Prop where
  | nothing (before : r.pending = none) (after : next.pending = none)
    (found : ∀ name, program[r.machine.cursor]? ≠ some (.instruction name))
  | mnemonic {name : String} {i : Instruction} (before : r.pending = none)
    (found : program[r.machine.cursor]? = some (.instruction name))
    (known : r.machine.instructions.get? name = some i) (after : next.pending = some i)
    (operands : next.operands = [])
  | operand {o : Statement.Operand} {i : Instruction} (before : r.pending = some i)
    (found : program[r.machine.cursor]? = some o.token) (after : next.pending = some i)
    (operands : next.operands = r.operands ++ [o.passed])

inductive Turn (program : Array Token) (r next : Run) : Prop where
  | refuses {token : Token} {error : TokenError} (fetches : r.Fetches program token)
    (refuses : r.Refuses token error) (result : next.machine = r.ready.tokenError error true)
  | passes {token : Token} (fetches : r.Fetches program token)
    (advances : Advances r.machine next.machine) (collects : Collects program r next)
  | invokes {call : Invocation} {later : Machine} (invokes : r.Invokes program call)
    (executed : r.ready.execute call.instruction call.arguments = (later, .ok ()))
    (result : next = continued later)

theorem turn_of_idle (hfetches : r.Fetches program token) (hidle : r.pending = none)
    (htake : r.take token = .next next) : Turn program r next := by
  cases token with
  | instruction name =>
    simp only [take, hidle] at htake
    split at htake
    · rename_i habsent
      cases htake
      exact .refuses hfetches (.unknown name hidle habsent) rfl
    · rename_i i hknown
      cases htake
      exact .passes hfetches ⟨rfl, rfl, rfl, rfl, rfl⟩ (.mnemonic hidle hfetches.found hknown rfl rfl)
  | value v =>
    simp only [take, hidle] at htake
    cases htake
    exact .refuses hfetches (.stray v hidle) rfl
  | register name | statementEnd =>
    simp only [take, hidle] at htake
    cases htake
    refine .passes hfetches ⟨rfl, rfl, rfl, rfl, rfl⟩ (.nothing hidle rfl fun name hname => ?_)
    cases hfetches.found.symm.trans hname

theorem turn_of_pending {i : Instruction} (hfetches : r.Fetches program token)
    (hpending : r.pending = some i) (htake : r.take token = .next next) : Turn program r next := by
  cases token with
  | instruction name =>
    simp only [take, hpending] at htake
    cases htake
    exact .refuses hfetches (.clash name hpending) rfl
  | value v =>
    simp only [take, hpending] at htake
    cases htake
    exact .passes hfetches ⟨rfl, rfl, rfl, rfl, rfl⟩
      (.operand (o := .value v) hpending hfetches.found rfl rfl)
  | register name =>
    simp only [take, hpending] at htake
    split at htake
    · cases htake
      exact .passes hfetches ⟨rfl, rfl, rfl, rfl, rfl⟩
        (.operand (o := .register name) hpending hfetches.found rfl rfl)
    · rename_i habsent
      cases htake
      exact .refuses hfetches (.undeclared name hpending (eq_false_of_ne_true habsent)) rfl
  | statementEnd =>
    rw [take_of_pending hpending] at htake
    have hinvokes : r.Invokes program ⟨r.machine.cursor, i, r.operands⟩ :=
      ⟨hfetches, rfl, hpending, rfl⟩
    split at htake
    · cases htake
    · rename_i later hexecuted
      cases htake
      exact .invokes hinvokes hexecuted rfl

/-- Whatever a run does in one step. -/
theorem turn_of_step (h : r.step program = .next next) : Turn program r next := by
  obtain ⟨hrunning, token, htoken, htake⟩ := exists_token_of_step h
  cases hpending : r.pending with
  | none => exact turn_of_idle ⟨hrunning, htoken⟩ hpending htake
  | some i => exact turn_of_pending ⟨hrunning, htoken⟩ hpending htake

theorem step_of_refuses {error : TokenError} (hfetches : r.Fetches program token)
    (h : r.Refuses token error) :
    r.step program = .next { r with machine := r.ready.tokenError error true } := by
  rw [step_of_running hfetches.running hfetches.found]
  cases h with
  | clash name pending | stray v pending => simp only [take, pending, ready]
  | unknown name idle absent => simp only [take, idle, absent, ready]
  | undeclared name pending absent => simp [take, pending, absent, ready]

theorem step_of_invokes {later : Machine} (h : r.Invokes program call)
    (hexecuted : r.ready.execute call.instruction call.arguments = (later, .ok ())) :
    r.step program = .next (continued later) := by
  rw [step_of_running h.fetches.running h.fetches.found, take_of_pending h.pending, h.operands,
    hexecuted]

section Continued

variable (m : Machine)

@[simp] theorem halted_continued : (continued m).machine.halted = m.halted := by
  rw [continued]
  split <;> rfl

@[simp] theorem jumped_continued : (continued m).machine.jumped = m.jumped := by
  rw [continued]
  split <;> rfl

@[simp] theorem frozen_continued : (continued m).machine.frozen = m.frozen := by
  rw [continued]
  split <;> rfl

@[simp] theorem instructions_continued : (continued m).machine.instructions = m.instructions := by
  rw [continued]
  split <;> rfl

end Continued

/-- A run ends because it is halted, because it is past its program or with a fault of what it invokes. -/
theorem ended_cases {final : Machine} {result : Except Fault Unit}
    (h : r.step program = .ended final result) :
    (final = r.machine ∧ result = .ok () ∧
        (r.machine.halted = true ∨ program.size ≤ r.machine.cursor)) ∨
      ∃ call fault, r.Invokes program call ∧ result = .error fault ∧
        r.ready.execute call.instruction call.arguments = (final, .error fault) := by
  rw [step] at h
  split at h
  · rename_i hnone
    cases h
    exact .inl ⟨rfl, rfl, .inr (Array.getElem?_eq_none_iff.mp hnone)⟩
  · rename_i token htoken
    split at h
    · rename_i hhalted
      cases h
      exact .inl ⟨rfl, rfl, .inl hhalted⟩
    · rename_i hrunning
      rw [take_eq_answer] at h
      cases hchoice : r.choose token with
      | finish i =>
        obtain ⟨rfl, hpending⟩ := choose_eq_finish_iff.mp hchoice
        rw [hchoice, answer] at h
        split at h
        · rename_i fault hexecuted
          cases h
          exact .inr ⟨⟨r.machine.cursor, i, r.operands⟩, fault,
            ⟨⟨eq_false_of_ne_true hrunning, htoken⟩, rfl, hpending, rfl⟩, rfl, hexecuted⟩
        · cases h
      | refuse | warn | skip | start | collect =>
        rw [hchoice] at h
        cases h

theorem eq_of_ended_ok {final : Machine} (h : r.step program = .ended final (.ok ())) :
    final = r.machine ∧ (r.machine.halted = true ∨ program.size ≤ r.machine.cursor) := by
  obtain ⟨hfinal, -, hexit⟩ | ⟨call, fault, -, ⟨⟩, -⟩ := ended_cases h
  exact ⟨hfinal, hexit⟩

theorem step_of_past (h : program.size ≤ r.machine.cursor) :
    r.step program = .ended r.machine (.ok ()) := by
  rw [step, Array.getElem?_eq_none_iff.mpr h]

/-- There is no third way: a run exits or takes the token that it fetches. -/
theorem exits_or_fetches (program : Array Token) (r : Run) :
    ((r.machine.halted = true ∨ program.size ≤ r.machine.cursor) ∧
        r.step program = .ended r.machine (.ok ())) ∨
      ∃ token, r.Fetches program token ∧ r.step program = r.take token := by
  cases hhalted : r.machine.halted with
  | true => exact .inl ⟨.inl rfl, step_of_halted hhalted⟩
  | false =>
    cases htoken : program[r.machine.cursor]? with
    | none =>
      have hpast : program.size ≤ r.machine.cursor := Array.getElem?_eq_none_iff.mp htoken
      exact .inl ⟨.inr hpast, step_of_past hpast⟩
    | some token => exact .inr ⟨token, ⟨hhalted, htoken⟩, step_of_running hhalted htoken⟩

/-! ## The invocations of a run -/

def invocation? (program : Array Token) (r : Run) : Option Invocation :=
  match r.machine.halted, program[r.machine.cursor]?, r.pending with
  | false, some .statementEnd, some i => some ⟨r.machine.cursor, i, r.operands⟩
  | _, _, _ => none

theorem invocation?_eq_some_iff : r.invocation? program = some call ↔ r.Invokes program call := by
  constructor
  · intro h
    rw [invocation?] at h
    split at h
    · rename_i i hrunning hfound hpending
      cases h
      exact ⟨⟨hrunning, hfound⟩, rfl, hpending, rfl⟩
    · cases h
  · rintro ⟨⟨hrunning, hfound⟩, hindex, hpending, hoperands⟩
    simp only [invocation?, hrunning, hfound, hpending]
    rw [hindex, hoperands]

/-- The invocations of at most `fuel` steps, in order. -/
def invocations (program : Array Token) : Nat → Run → List Invocation
  | 0, _ => []
  | fuel + 1, r =>
    (r.invocation? program).toList ++
      match r.step program with
      | .ended _ _ => []
      | .next r => invocations program fuel r

theorem mem_invocations_iff :
    call ∈ invocations program fuel r ↔
      ∃ n < fuel, ∃ s, Steps program n r s ∧ s.Invokes program call := by
  induction fuel generalizing r with
  | zero => simp [invocations]
  | succ fuel ih =>
    rw [invocations, List.mem_append, Option.mem_toList, invocation?_eq_some_iff]
    constructor
    · rintro (hfirst | hlater)
      · exact ⟨0, by omega, r, .refl r, hfirst⟩
      · cases hstep : r.step program with
        | ended m result =>
          rw [hstep] at hlater
          cases hlater
        | next after =>
          rw [hstep] at hlater
          obtain ⟨n, hn, s, hsteps, hinvokes⟩ := ih.mp hlater
          exact ⟨n + 1, by omega, s, .head hstep hsteps, hinvokes⟩
    · rintro ⟨n, hn, s, hsteps, hinvokes⟩
      cases hsteps with
      | refl => exact .inl hinvokes
      | head first rest =>
        rw [first]
        exact .inr (ih.mpr ⟨_, by omega, s, rest, hinvokes⟩)

theorem pairwise_invocations
    (h : ∀ {n k : Nat} {s t : Run} {a b : Invocation}, Steps program n r s →
      Steps program (k + 1) s t → s.Invokes program a → t.Invokes program b → a.index < b.index) :
    (invocations program fuel r).Pairwise fun a b => a.index < b.index := by
  induction fuel generalizing r with
  | zero => exact .nil
  | succ fuel ih =>
    rw [invocations]
    cases hstep : r.step program with
    | ended m result =>
      rw [List.append_nil]
      cases r.invocation? program with
      | none => exact .nil
      | some call => exact List.pairwise_singleton _ _
    | next after =>
      have hrest := ih fun hsteps => h (.head hstep hsteps)
      cases hcall : r.invocation? program with
      | none => exact hrest
      | some call =>
        refine List.pairwise_cons.mpr ⟨fun b hb => ?_, hrest⟩
        obtain ⟨n, -, s, hsteps, hinvokes⟩ := mem_invocations_iff.mp hb
        exact h (.refl r) (.head hstep hsteps) (invocation?_eq_some_iff.mp hcall) hinvokes

end Run

end LineAssembly
