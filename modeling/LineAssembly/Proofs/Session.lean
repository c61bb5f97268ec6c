import LineAssembly.Session
import LineAssembly.Proofs.Machine.Scan
import LineAssembly.Proofs.Machine.Steps

/-! # Sessions with a halted machine

A halted machine still reads sources and still answers every request to run a program, but no such
request changes a register or the output.
-/

set_option autoImplicit false

namespace LineAssembly

/-- A request to read a program, to run one, or to do both. -/
def Request.isProgram : Request → Bool
  | .act (.load _) => true
  | .act _ => false
  | .run _ => true
  | .interpret _ => true

namespace Machine

/-- Requests answered one after the other, each with at most `fuel` steps of a run. -/
def serveAll (fuel : Nat) : Machine → List Request → Option Machine
  | m, [] => some m
  | m, q :: rest => (m.serve fuel q).bind fun answer => serveAll fuel answer.1 rest

structure HaltedAs (m other : Machine) : Prop where
  halted : other.halted = true
  registers : other.registers = m.registers
  output : other.output = m.output

theorem HaltedAs.trans {m other third : Machine} (h : m.HaltedAs other) (h' : other.HaltedAs third) :
    m.HaltedAs third :=
  ⟨h'.halted, h'.registers.trans h.registers, h'.output.trans h.output⟩

variable {m : Machine}

theorem haltedAs_scan (hhalted : m.halted = true) (source : String) :
    m.HaltedAs (m.scan source).1 := by
  obtain ⟨diagnostics, journal, errorCount, hscan⟩ := m.exists_scan source
  rw [hscan]
  exact ⟨hhalted, rfl, rfl⟩

theorem haltedAs_load (hhalted : m.halted = true) (source : String) :
    m.HaltedAs (m.load source).1 := by
  have hscan := haltedAs_scan hhalted source
  rw [load]
  rcases hresult : m.scan source with ⟨scanned, fault | tokens⟩
  all_goals
    rw [hresult] at hscan
    exact ⟨hscan.halted, hscan.registers, hscan.output⟩

theorem haltedAs_run (hhalted : m.halted = true) (fuel : Nat) (tokens : List Token) :
    ∃ final, m.run (fuel + 1) tokens = some (final, .ok ()) ∧ m.HaltedAs final :=
  ⟨m.start.machine, Run.upTo_of_ended (Run.step_of_halted hhalted), hhalted, rfl, rfl⟩

theorem haltedAs_interpret (hhalted : m.halted = true) (fuel : Nat) (source : String) :
    ∃ final result, m.interpret (fuel + 1) source = some (final, result) ∧ m.HaltedAs final := by
  have hscan := haltedAs_scan hhalted source
  rw [interpret]
  rcases hresult : m.scan source with ⟨scanned, fault | tokens⟩
  · rw [hresult] at hscan
    exact ⟨scanned, _, rfl, hscan⟩
  · rw [hresult] at hscan
    simp only
    split
    · exact ⟨_, _, rfl, hscan.halted, hscan.registers, hscan.output⟩
    · obtain ⟨final, hfinal, hsame⟩ := haltedAs_run hscan.halted fuel tokens
      exact ⟨final, _, hfinal, hscan.trans hsame⟩

theorem haltedAs_serve (hhalted : m.halted = true) (fuel : Nat) {q : Request}
    (hq : q.isProgram = true) :
    ∃ final reply, m.serve (fuel + 1) q = some (final, reply) ∧ m.HaltedAs final := by
  cases q with
  | run tokens =>
    obtain ⟨final, hfinal, hsame⟩ := haltedAs_run hhalted fuel (tokens.getD m.program)
    exact ⟨final, _, by rw [serve, hfinal]; rfl, hsame⟩
  | interpret source =>
    obtain ⟨final, result, hfinal, hsame⟩ := haltedAs_interpret hhalted fuel source
    cases result <;> exact ⟨final, _, by rw [serve, hfinal]; rfl, hsame⟩
  | act action =>
    cases action with
    | load source =>
      have hload := haltedAs_load hhalted source
      rcases hresult : m.load source with ⟨loaded, fault | tokens⟩
      all_goals
        rw [hresult] at hload
        exact ⟨loaded, _, by simp only [serve, perform, hresult]; rfl, hload⟩
    | _ => cases hq

theorem haltedAs_serveAll (hhalted : m.halted = true) (fuel : Nat) {requests : List Request}
    (hrequests : ∀ q ∈ requests, q.isProgram = true) :
    ∃ final, m.serveAll (fuel + 1) requests = some final ∧ m.HaltedAs final := by
  induction requests generalizing m with
  | nil => exact ⟨m, rfl, hhalted, rfl, rfl⟩
  | cons q rest ih =>
    have hq : q.isProgram = true := hrequests q List.mem_cons_self
    obtain ⟨middle, reply, hserve, hsame⟩ := haltedAs_serve hhalted fuel hq
    obtain ⟨final, hfinal, hrest⟩ :=
      ih hsame.halted fun q hmem => hrequests q (List.mem_cons_of_mem _ hmem)
    exact ⟨final, by rw [serveAll, hserve]; exact hfinal, hsame.trans hrest⟩

end Machine

end LineAssembly
