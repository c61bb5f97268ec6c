import LineAssembly.Proofs.Machine.Use

/-! # What every session keeps

As long as a host assigns no register directly, in a request or in a script, no register holds a
reference, so one step of resolution is enough. The records of a machine are what its two audiences have
been told since the last reset. Main statement: this holds of a new machine after any requests, whether
or not they ended in faults, and in the middle of any run.
-/

set_option autoImplicit false

namespace LineAssembly

/-- An action that assigns a register directly, or declares a script with such an action. -/
inductive Action.Assigns : Action → Prop where
  | assign (register : String) (value : Operand) : Assigns (.assign register value)
  | insertInstruction {d : Declaration Script} {steps : Script} {action : Action}
    (body : d.body = some steps) (mem : action ∈ steps) (assigns : Assigns action) :
    Assigns (.insertInstruction d)
  | insertInstructions {ds : List (Declaration Script)} {d : Declaration Script} {steps : Script}
    {action : Action} (declared : d ∈ ds) (body : d.body = some steps) (mem : action ∈ steps)
    (assigns : Assigns action) : Assigns (.insertInstructions ds)

def Action.Indirect (action : Action) : Prop :=
  ¬ action.Assigns

theorem Action.hereditary_indirect : Action.Hereditary Action.Indirect where
  single hdeclares hbody _ hmem hassigns := hdeclares (.insertInstruction hbody hmem hassigns)
  several hdeclares hd hbody _ hmem hassigns := hdeclares (.insertInstructions hd hbody hmem hassigns)

/-- What a register may hold. -/
def Value.Concrete : Value → Prop
  | .int n => leastInt ≤ n.toInt ∧ n.toInt ≤ greatestInt
  | .label _ => True
  | .register _ => False
  | .empty => True

theorem Value.concrete_int (n : Int32) : (Value.int n).Concrete :=
  toInt_inRange n

namespace Event

/-- The events behind the last reset, or all of them. -/
def sinceReset (journal : Array Event) : List Event :=
  (journal.toList.reverse.takeWhile (· ≠ .cleared)).reverse

/-- The line that the audience of diagnostics is told, unless it belongs to a dump of the state. -/
def reportLine? : Event → Option String
  | .dumped _ => none
  | e => e.diagnosticLine?

theorem filterMap_sinceReset_push (line? : Event → Option String) (journal : Array Event) {e : Event}
    (h : e ≠ .cleared) : (sinceReset (journal.push e)).filterMap line? =
      (sinceReset journal).filterMap line? ++ (line? e).toList := by
  have hpush : sinceReset (journal.push e) = sinceReset journal ++ [e] := by
    simp [sinceReset, h]
  rw [hpush, List.filterMap_append]
  cases hline : line? e <;> simp [hline]

theorem sinceReset_cleared (journal : Array Event) : sinceReset (journal.push .cleared) = [] := by
  simp [sinceReset]

end Event

/-- A table of registers as they are declared and written. -/
structure Table.Orderly (registers : Table Value) : Prop where
  values : ∀ b ∈ registers, b.2.Concrete
  names : ∀ b ∈ registers, Text.isName b.1.toList = true
  distinct : registers.names.Nodup

namespace Table.Orderly

variable {registers : Table Value} (h : registers.Orderly)

include h

theorem put {name : String} (hname : Text.isName name.toList = true) {v : Value} (hv : v.Concrete) :
    Table.Orderly (registers.put name v) where
  values b hb := by
    rcases mem_put hb with hb | rfl
    · exact h.values b hb
    · exact hv
  names b hb := by
    rcases mem_put hb with hb | rfl
    · exact h.names b hb
    · exact hname
  distinct := nodup_names_put h.distinct name v

theorem fill : Table.Orderly (registers.fill .empty) where
  values b hb := by
    obtain ⟨a, -, rfl⟩ := List.mem_map.mp hb
    trivial
  names b hb := by
    obtain ⟨a, ha, rfl⟩ := List.mem_map.mp hb
    exact h.names a ha
  distinct := by
    rw [names_fill]
    exact h.distinct

theorem isName_of_has {name : String} (hname : registers.has name = true) :
    Text.isName name.toList = true := by
  obtain ⟨b, hb, rfl⟩ := List.mem_map.mp ((has_iff_mem_names registers name).mp hname)
  exact h.names b hb

theorem concrete_of_resolve {v found : Value} (hv : v.resolve registers = some found) :
    found.Concrete := by
  cases v with
  | int n =>
    cases hv
    exact Value.concrete_int n
  | register name => exact h.values (name, found) (mem_of_get? hv)
  | label name | empty =>
    cases hv
    trivial

/-- A value that stands behind an operand stands for itself. -/
theorem resolve_of_resolve {v found : Value} (hv : v.resolve registers = some found) :
    found.resolve registers = some found := by
  have hconcrete := h.concrete_of_resolve hv
  cases found with
  | register name => exact hconcrete.elim
  | int n | label name | empty => rfl

end Table.Orderly

namespace Machine

/-- The records hold what the audiences have been told since the last reset. -/
structure Recorded (m : Machine) : Prop where
  errorCount : m.errorCount = m.diagnostics.size
  diagnostics : m.diagnostics.toList.map Diagnostic.message =
    (Event.sinceReset m.journal).filterMap Event.reportLine?
  output : m.output.toList = (Event.sinceReset m.journal).filterMap Event.outputLine?

namespace Recorded

variable {m : Machine} (h : m.Recorded)

include h

theorem log {e : Event} (he : e.isAside = true) : (m.log e).Recorded := by
  have hcleared : e ≠ .cleared := by
    rintro rfl
    cases he
  have hquiet : e.reportLine? = none ∧ e.outputLine? = none := by
    cases e <;> cases he <;> exact ⟨rfl, rfl⟩
  constructor
  · exact h.errorCount
  · rw [Machine.log, Event.filterMap_sinceReset_push _ _ hcleared, hquiet.1]
    simpa using h.diagnostics
  · rw [Machine.log, Event.filterMap_sinceReset_push _ _ hcleared, hquiet.2]
    simpa using h.output

theorem report (d : Diagnostic) (halting : Bool) : (m.report d halting).Recorded := by
  have hreported : (m.report d false).Recorded := by
    constructor
    · simp [Machine.report, h.errorCount]
    · simp [Machine.report, h.diagnostics, Event.filterMap_sinceReset_push, Event.reportLine?,
        Event.diagnosticLine?]
    · simp [Machine.report, h.output, Event.filterMap_sinceReset_push, Event.outputLine?]
  cases halting with
  | false => exact hreported
  | true =>
    have hhalted : (m.report d false).halt.Recorded :=
      ⟨hreported.errorCount, hreported.diagnostics, hreported.output⟩
    exact hhalted.log rfl

theorem emit (text : String) : (m.emit text).Recorded := by
  constructor
  · exact h.errorCount
  · simp [Machine.emit, h.diagnostics, Event.filterMap_sinceReset_push, Event.reportLine?,
      Event.diagnosticLine?]
  · simp [Machine.emit, h.output, Event.filterMap_sinceReset_push, Event.outputLine?]

end Recorded

theorem recorded_reset (m : Machine) : m.reset.Recorded := by
  constructor
  · rfl
  · simp [reset, Event.sinceReset_cleared]
  · simp [reset, Event.sinceReset_cleared]

/-- Cursors and label indices are never negative by their type. -/
structure Sound (m : Machine) : Prop extends Recorded m where
  registers : m.registers.Orderly
  cursor : (0 : Int) ≤ m.cursor
  labels : ∀ b ∈ m.labels, (0 : Int) ≤ b.2

theorem Recorded.sound {m : Machine} (h : m.Recorded) (hregisters : m.registers.Orderly) : m.Sound :=
  ⟨h, hregisters, Int.natCast_nonneg _, fun _ _ => Int.natCast_nonneg _⟩

theorem Deed.sound {m later : Machine} (h : Deed Action.Indirect m later) (hm : m.Sound) :
    later.Sound := by
  have hsame : later.Recorded → later.registers = m.registers → later.Sound := by
    intro hrecorded hregisters
    exact hrecorded.sound (hregisters ▸ hm.registers)
  cases h with
  | declare name thawed valid new =>
    exact Recorded.sound ⟨hm.errorCount, hm.diagnostics, hm.output⟩ (hm.registers.put valid trivial)
  | store name declared resolved =>
    have hname := hm.registers.isName_of_has declared
    have hfound := hm.registers.concrete_of_resolve resolved
    exact Recorded.sound ⟨hm.errorCount, hm.diagnostics, hm.output⟩ (hm.registers.put hname hfound)
  | assign name o v permitted => exact absurd (.assign name o) permitted
  | reset permitted => exact (recorded_reset m).sound hm.registers.fill
  | log e aside => exact hsame (hm.toRecorded.log aside) rfl
  | report d halting => exact hsame (hm.toRecorded.report d halting) (by cases halting <;> rfl)
  | emit text => exact hsame (hm.toRecorded.emit text) rfl
  | moveTo index =>
    have hlogged := hm.toRecorded.log (e := .traced (.jumped m.cursor index)) rfl
    exact hsame ⟨hlogged.errorCount, hlogged.diagnostics, hlogged.output⟩ rfl
  | install | bindLabels | hold | halt =>
    exact hsame ⟨hm.errorCount, hm.diagnostics, hm.output⟩ rfl

theorem Change.sound {m later : Machine} (h : Change Action.Indirect m later) (hm : m.Sound) :
    later.Sound := by
  cases h with
  | deed h => exact h.sound hm
  | start | settle | advance =>
    exact Recorded.sound ⟨hm.errorCount, hm.diagnostics, hm.output⟩ hm.registers

theorem Changes.sound {m later : Machine} (h : Changes Action.Indirect m later) (hm : m.Sound) :
    later.Sound := by
  induction h with
  | refl => exact hm
  | tail _ last ih => exact last.sound ih

theorem sound_new : ({} : Machine).Sound :=
  Recorded.sound ⟨rfl, rfl, rfl⟩ ⟨nofun, nofun, List.nodup_nil⟩

theorem within_new {P : Action → Prop} : ({} : Machine).Within P :=
  nofun

theorem resolve_of_read {m : Machine} {v found : Value} (h : (m.read v).2 = some found) :
    v.resolve m.registers = some found := by
  rw [read] at h
  split at h <;> simp_all

/-- The requests may end in faults, and a run after them need not end. -/
theorem sound_serveAll {fuel : Nat} {requests : List Request} {m : Machine}
    (hrequests : ∀ q ∈ requests, q.Within Action.Indirect)
    (hserve : ({} : Machine).serveAll fuel requests = some m) :
    m.Sound ∧
      (∀ v found : Value, v.resolve m.registers = some found → found.resolve m.registers = some found) ∧
      (∀ v found, (m.read v).2 = some found → m.read found = (m, some found)) ∧
      ∀ tokens n r, Run.Steps tokens n m.start r → r.machine.Sound := by
  have hchanges := changes_serveAll Action.hereditary_indirect within_new hrequests hserve
  have hsound := hchanges.sound sound_new
  refine ⟨hsound, fun v found => hsound.registers.resolve_of_resolve, ?_, ?_⟩
  · intro v found hread
    rw [read, hsound.registers.resolve_of_resolve (resolve_of_read hread)]
  · intro tokens n r hsteps
    have hstart := Run.within_start (hchanges.within within_new)
    obtain ⟨hrun, -⟩ := hsteps.changes Action.hereditary_indirect hstart
    exact hrun.sound (Change.start.sound hsound)

/-- A host instruction that writes through its arguments, reports and declares nothing. -/
def copying : Declaration Script :=
  ⟨"COPY", 2, some 2,
    some [.write (.argument 0) (.operand (.argument 1)), .report "copied" false, .dump, .emit "done"]⟩

/-- A register is declared twice and the second interpretation ends in a failure. -/
def copyingRequests : List Request :=
  [.act (.insertRegister "a"), .act (.insertRegister "b"), .act (.insertRegister "a"),
    .act .insertStandard, .act (.insertInstruction copying), .act (.report "early" false), .act .reset,
    .interpret "SET [a] 5\nCOPY [b] [a]", .interpret "SET [a] x\nADD [a] 1"]

theorem sound_serveAll_copying :
    ∃ m, ({} : Machine).serveAll 40 copyingRequests = some m ∧
      m.registers = [("a", .label "x"), ("b", .int 5)] ∧ m.registers.Orderly ∧ m.errorCount = 2 ∧
      (Event.sinceReset m.journal).filterMap Event.reportLine? =
        ["copied", "Expected an integer operand, got label x"] ∧
      (Event.sinceReset m.journal).filterMap Event.outputLine? = ["done"] := by
  have hserve : (({} : Machine).serveAll 40 copyingRequests).map
      (fun m => (m.registers, m.errorCount, m.diagnostics, m.output)) =
        some ([("a", .label "x"), ("b", .int 5)], 2, #[.host "copied", .notInteger (.label "x")],
          #["done"]) := by
    decide +kernel
  obtain ⟨m, hm, hstate⟩ := Option.map_eq_some_iff.mp hserve
  simp only [Prod.mk.injEq] at hstate
  obtain ⟨hregisters, hcount, hdiagnostics, houtput⟩ := hstate
  have hcopying : Action.Indirect (.insertInstruction copying) := by
    rintro (_ | ⟨⟨⟩, hmem, hassigns⟩ | _)
    simp only [List.mem_cons, List.not_mem_nil, or_false] at hmem
    rcases hmem with rfl | rfl | rfl | rfl <;> cases hassigns
  have hrequests : ∀ q ∈ copyingRequests, q.Within Action.Indirect := by
    simp only [copyingRequests, List.forall_mem_cons]
    exact ⟨nofun, nofun, nofun, nofun, hcopying, nofun, nofun, trivial, trivial, nofun⟩
  obtain ⟨hsound, -⟩ := sound_serveAll hrequests hm
  refine ⟨m, hm, hregisters, hsound.registers, hcount, ?_, ?_⟩
  · rw [← hsound.diagnostics, hdiagnostics]
    decide +kernel
  · rw [← hsound.output, houtput]

end Machine

end LineAssembly
