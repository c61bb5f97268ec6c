import LineAssembly.Proofs.Machine.Past

/-! # A reset machine is as good as new

A host learns about a machine from the answers to its requests, from the state that it finds afterwards
and from what the machine tells its audiences. Main statement: by none of these can it tell a machine
that was reset from a new one with the same configuration, whatever the machine went through before and
whatever is asked of it later.
-/

set_option autoImplicit false

namespace LineAssembly

/-- The state that a host finds. -/
structure View where
  registers : Table Value
  labels : Table Nat
  instructions : InstructionSet
  cursor : Nat
  halted : Bool
  frozen : Bool
  errorCount : Nat
  diagnostics : Array Diagnostic
  output : Array String

/-- What a host learns from one request. The events are those of this request: the lines for the two
audiences, the debug records and the calls of host instructions. -/
structure Observation where
  reply : Except Fault Reply
  view : View
  events : List Event

namespace Machine

def view (m : Machine) : View where
  registers := m.registers
  labels := m.labels
  instructions := m.instructions
  cursor := m.cursor
  halted := m.halted
  frozen := m.frozen
  errorCount := m.errorCount
  diagnostics := m.diagnostics
  output := m.output

def observe (m : Machine) (answer : Machine × Except Fault Reply) : Observation where
  reply := answer.2
  view := answer.1.view
  events := answer.1.journal.toList.drop m.journal.size

/-- What a host learns from its requests, one after the other. It learns nothing more from a run that
takes too many steps. -/
def transcript (fuel : Nat) : Machine → List Request → List Observation
  | _, [] => []
  | m, q :: rest =>
    match m.serve fuel q with
    | none => []
    | some answer => m.observe answer :: transcript fuel answer.1 rest

/-- A new machine with the same instructions, the same registers, all of them empty, and the same frozen
mark. The loaded program is not a part of the machine: it stays with the host. -/
def rebuilt (m : Machine) : Machine :=
  { registers := m.registers.fill .empty
    instructions := m.instructions
    frozen := m.frozen
    program := m.program }

theorem reset_eq_behind (m : Machine) :
    m.reset = m.rebuilt.behind ⟨m.journal.push .cleared, m.jumped⟩ := by
  simp [reset, rebuilt, behind]

theorem observe_behind (m : Machine) (p : Past) (jumped : Bool)
    (answer : Machine × Except Fault Reply) :
    (m.behind p).observe (Past.carry { p with jumped := jumped } answer) = m.observe answer := by
  have hevents : (p.events ++ answer.1.journal).toList.drop (p.events ++ m.journal).size =
      answer.1.journal.toList.drop m.journal.size := by
    rw [Array.toList_append, Array.size_append, ← Array.length_toList, List.drop_length_add_append]
  exact congrArg (Observation.mk answer.2 answer.1.view) hevents

theorem transcript_behind (fuel : Nat) (requests : List Request) (m : Machine) (p : Past) :
    (m.behind p).transcript fuel requests = m.transcript fuel requests := by
  induction requests generalizing m p with
  | nil => rfl
  | cons q rest ih =>
    obtain ⟨jumped, hserve⟩ := m.exists_serve_behind p fuel q
    rw [transcript, transcript, hserve]
    cases m.serve fuel q with
    | none => rfl
    | some answer =>
      have hobserve := m.observe_behind p jumped answer
      have hrest := ih answer.1 { p with jumped := jumped }
      exact congrArg₂ List.cons hobserve hrest

/-- The events of the earlier life and its last jump are all that is left of it. -/
theorem transcript_reset (m : Machine) :
    m.reset.view = m.rebuilt.view ∧
      ∀ fuel requests, m.reset.transcript fuel requests = m.rebuilt.transcript fuel requests := by
  rw [reset_eq_behind]
  exact ⟨rfl, fun fuel requests => transcript_behind fuel requests m.rebuilt _⟩

end Machine

end LineAssembly
