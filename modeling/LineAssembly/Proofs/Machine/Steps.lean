import LineAssembly.Machine.Run
import LineAssembly.Proofs.Machine.Effect

/-! # Runs step by step

A run is deterministic, so the steps that it has taken fix the answer that it can still give. An answer
does not depend on the number of steps that were allowed for it.
-/

set_option autoImplicit false

namespace LineAssembly.Run

variable {program : Array Token} {r a b c : Run} {n k fuel : Nat}

inductive Steps (program : Array Token) : Nat → Run → Run → Prop where
  | refl (r : Run) : Steps program 0 r r
  | head {n : Nat} {a b c : Run} (first : a.step program = .next b) (rest : Steps program n b c) :
    Steps program (n + 1) a c

namespace Steps

theorem single (h : a.step program = .next b) : Steps program 1 a b :=
  head h (refl b)

theorem trans (hab : Steps program n a b) (hbc : Steps program k b c) :
    Steps program (n + k) a c := by
  induction hab with
  | refl r => rwa [Nat.zero_add]
  | head first _ ih =>
    rw [Nat.add_right_comm]
    exact head first (ih hbc)

theorem upTo_add (h : Steps program n a b) (fuel : Nat) :
    upTo program (n + fuel) a = upTo program fuel b := by
  induction h with
  | refl r => rw [Nat.zero_add]
  | head first _ ih =>
    rw [Nat.add_right_comm, upTo, first]
    exact ih

/-- A run that answers has first taken every step that it can take. -/
theorem exists_fuel_of_upTo (h : Steps program n a b) {answer : Machine × Except Fault Unit}
    (hanswer : upTo program fuel a = some answer) :
    ∃ rest, fuel = n + rest ∧ upTo program rest b = some answer := by
  induction h generalizing fuel with
  | refl r => exact ⟨fuel, (Nat.zero_add fuel).symm, hanswer⟩
  | head first _ ih =>
    cases fuel with
    | zero => cases hanswer
    | succ fuel =>
      rw [upTo, first] at hanswer
      obtain ⟨rest, rfl, hrest⟩ := ih hanswer
      exact ⟨rest, by omega, hrest⟩

/-- There is only one way to go on, so the longer of two ways from one run passes the end of the other. -/
theorem remaining (h : Steps program n a b) (h' : Steps program (n + k) a c) : Steps program k b c := by
  induction h with
  | refl r => rwa [Nat.zero_add] at h'
  | head first _ ih =>
    rw [Nat.add_right_comm] at h'
    cases h' with
    | head first' rest =>
      cases first.symm.trans first'
      exact ih rest

theorem split (h : Steps program (n + k) a c) : ∃ b, Steps program n a b ∧ Steps program k b c := by
  induction n generalizing a with
  | zero =>
    rw [Nat.zero_add] at h
    exact ⟨a, .refl a, h⟩
  | succ n ih =>
    rw [Nat.add_right_comm] at h
    cases h with
    | head first rest =>
      obtain ⟨b, hbefore, hafter⟩ := ih rest
      exact ⟨b, .head first hbefore, hafter⟩

theorem exists_last (h : Steps program (n + 1) a c) :
    ∃ b, Steps program n a b ∧ b.step program = .next c := by
  obtain ⟨b, hbefore, hlast⟩ := h.split
  cases hlast with
  | head first rest =>
    cases rest
    exact ⟨b, hbefore, first⟩

end Steps

theorem exists_steps_of_upTo {answer : Machine × Except Fault Unit}
    (h : upTo program fuel r = some answer) :
    ∃ n last, Steps program n r last ∧ last.step program = .ended answer.1 answer.2 := by
  induction fuel generalizing r with
  | zero => cases h
  | succ fuel ih =>
    rw [upTo] at h
    cases hstep : r.step program with
    | ended m result =>
      rw [hstep] at h
      cases h
      exact ⟨0, r, .refl r, hstep⟩
    | next after =>
      rw [hstep] at h
      obtain ⟨n, last, hsteps, hended⟩ := ih h
      exact ⟨n + 1, last, .head hstep hsteps, hended⟩

theorem upTo_of_ended {m : Machine} {result : Except Fault Unit}
    (h : r.step program = .ended m result) : upTo program (fuel + 1) r = some (m, result) := by
  rw [upTo, h]

theorem upTo_unique {fuel' : Nat} {answer answer' : Machine × Except Fault Unit}
    (h : upTo program fuel r = some answer) (h' : upTo program fuel' r = some answer') :
    answer = answer' := by
  obtain ⟨n, last, hsteps, hended⟩ := exists_steps_of_upTo h
  obtain ⟨rest, rfl, hrest⟩ := hsteps.exists_fuel_of_upTo h'
  cases rest with
  | zero => cases hrest
  | succ rest => exact Option.some.inj ((upTo_of_ended hended).symm.trans hrest)

/-- A halted machine ends its run, wherever the cursor stands. -/
theorem step_of_halted (h : r.machine.halted = true) :
    r.step program = .ended r.machine (.ok ()) := by
  rw [step]
  cases program[r.machine.cursor]? with
  | none => rfl
  | some token => exact if_pos h

theorem step_of_running {token : Token} (h : r.machine.halted = false)
    (htoken : program[r.machine.cursor]? = some token) : r.step program = r.take token := by
  simp only [step, htoken, h]
  rfl

theorem exists_token_of_step (h : a.step program = .next b) :
    a.machine.halted = false ∧
      ∃ token, program[a.machine.cursor]? = some token ∧ a.take token = .next b := by
  rw [step] at h
  split at h
  · cases h
  · rename_i token htoken
    split at h
    · cases h
    · rename_i hrunning
      exact ⟨eq_false_of_ne_true hrunning, token, htoken, h⟩

def ready (r : Run) : Machine :=
  { r.machine with jumped := false }

def continued (m : Machine) : Run :=
  ⟨if m.jumped then m else m.advance, none, []⟩

theorem take_of_pending {i : Instruction} (hpending : r.pending = some i) :
    r.take .statementEnd = match r.ready.execute i r.operands with
      | (m, .error fault) => .ended m (.error fault)
      | (m, .ok ()) => .next (continued m) := by
  obtain ⟨m, pending, operands⟩ := r
  cases hpending
  rfl

theorem take_statementEnd {i : Instruction} (hi : i ∈ Instruction.standard)
    (hpending : r.pending = some i) :
    r.take .statementEnd = .next (continued
      ((i.effect r.machine.registers r.machine.labels r.operands).apply r.ready)) := by
  obtain ⟨m, pending, operands⟩ := r
  cases hpending
  simp only [take, Machine.execute_standard hi]
  rfl

end LineAssembly.Run
