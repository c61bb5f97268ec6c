import LineAssembly.Proofs.Machine.Steps

/-! # What a run does with a token

A run first chooses what to do with a token and then does it. The choice looks at the token, the pending
instruction, the names of instructions and the names of registers, and at nothing else.
-/

set_option autoImplicit false

namespace LineAssembly

inductive Choice where
  | refuse (error : TokenError)
  | warn (register : String)
  | skip
  | start (i : Instruction)
  | collect (v : Value)
  | finish (i : Instruction)

namespace Run

def choose (r : Run) : Token → Choice
  | .instruction name =>
    match r.pending with
    | some pending => .refuse (.clash name pending.name)
    | none =>
      match r.machine.instructions.get? name with
      | none => .refuse (.unknownInstruction name)
      | some i => .start i
  | .value v =>
    match r.pending with
    | some _ => .collect v
    | none => .refuse (.strayValue v)
  | .register name =>
    match r.pending with
    | some _ =>
      if r.machine.registers.has name then .collect (.register name)
      else .refuse (.undeclaredRegister name)
    | none => .warn name
  | .statementEnd =>
    match r.pending with
    | some i => .finish i
    | none => .skip

theorem choose_eq_finish_iff {r : Run} {token : Token} {i : Instruction} :
    r.choose token = .finish i ↔ token = .statementEnd ∧ r.pending = some i := by
  obtain ⟨m, pending, operands⟩ := r
  constructor
  · intro h
    revert h
    fun_cases choose <;> rintro ⟨⟩
    exact ⟨rfl, ‹_›⟩
  · rintro ⟨rfl, ⟨⟩⟩
    rfl

/-- The run after a choice, where a finished instruction is a standard one. -/
def after (r : Run) : Choice → Run
  | .refuse error => { r with machine := r.ready.tokenError error true }
  | .warn name => { r with machine := (r.ready.tokenError (.strayRegister name) false).advance }
  | .skip => { r with machine := r.ready.advance }
  | .start i => ⟨r.ready.advance, some i, []⟩
  | .collect v => { r with machine := r.ready.advance, operands := r.operands ++ [v] }
  | .finish i => continued ((i.effect r.machine.registers r.machine.labels r.operands).apply r.ready)

theorem take_eq_after {r : Run} (hpending : ∀ i, r.pending = some i → i ∈ Instruction.standard)
    (token : Token) : r.take token = .next (r.after (r.choose token)) := by
  obtain ⟨m, pending, operands⟩ := r
  cases pending with
  | none =>
    cases token with
    | instruction name =>
      simp only [take, choose]
      cases m.instructions.get? name <;> rfl
    | value v | register name | statementEnd => rfl
  | some i =>
    cases token with
    | register name =>
      simp only [take, choose]
      split <;> rfl
    | statementEnd => exact take_statementEnd (hpending i rfl) rfl
    | instruction name | value v => rfl

/-- How a run goes on after a choice. A finished instruction may be any, and may end it. -/
def answer (r : Run) : Choice → Progress
  | .finish i =>
    match r.ready.execute i r.operands with
    | (m, .error fault) => .ended m (.error fault)
    | (m, .ok ()) => .next (continued m)
  | choice => .next (r.after choice)

theorem take_eq_answer (r : Run) (token : Token) : r.take token = r.answer (r.choose token) := by
  obtain ⟨m, pending, operands⟩ := r
  cases pending with
  | none =>
    cases token with
    | instruction name =>
      simp only [take, choose]
      cases m.instructions.get? name <;> rfl
    | value v | register name | statementEnd => rfl
  | some i =>
    cases token with
    | register name =>
      simp only [take, choose]
      split <;> rfl
    | statementEnd => exact take_of_pending rfl
    | instruction name | value v => rfl

end Run

end LineAssembly
