import LineAssembly.Proofs.Listing.RoundTrip
import LineAssembly.Proofs.Machine.Use
import LineAssembly.Proofs.Machine.FailStop
import LineAssembly.Proofs.Source.Tokens

/-! # What the audiences are told

A journal only grows, so what a machine has told its audiences stays as it is and more is added behind
it. A scan adds the messages of its errors and nothing else, and a dump adds the lines of the state.
-/

set_option autoImplicit false

namespace LineAssembly.Machine

variable {m later : Machine}

/-- The lines for both audiences, in the order they arose. -/
def told (m : Machine) : List String :=
  m.journal.toList.filterMap Event.line?

/-! ## The journal grows -/

theorem Deed.journal {P : Action → Prop} (h : Deed P m later) :
    m.journal.toList <+: later.journal.toList := by
  have hpush (journal : Array Event) (e : Event) : journal.toList <+: (journal.push e).toList := by
    rw [Array.toList_push]
    exact List.prefix_append _ _
  cases h with
  | log e | emit | moveTo | reset => exact hpush _ _
  | report d halting =>
    cases halting with
    | true => exact (hpush _ _).trans (hpush _ _)
    | false => exact hpush _ _
  | declare | install | bindLabels | hold | halt | store | assign => exact List.prefix_rfl

theorem Change.journal {P : Action → Prop} (h : Change P m later) :
    m.journal.toList <+: later.journal.toList := by
  cases h with
  | deed h => exact h.journal
  | start | settle | advance => exact List.prefix_rfl

theorem Changes.journal {P : Action → Prop} (h : Changes P m later) :
    m.journal.toList <+: later.journal.toList := by
  induction h with
  | refl => exact List.prefix_rfl
  | tail _ last ih => exact ih.trans last.journal

theorem journal_run {fuel : Nat} {ts : List Token} {answer : Machine × Except Fault Unit}
    (h : m.run fuel ts = some answer) : m.journal.toList <+: answer.1.journal.toList := by
  have hany : Action.Hereditary fun _ => True := ⟨fun _ _ _ _ => trivial, fun _ _ _ _ _ => trivial⟩
  have hwithin : m.Within fun _ => True := fun _ _ _ _ _ _ _ => trivial
  exact (changes_run hany hwithin h).journal

/-- What was told before, and then what the added events tell. -/
theorem told_of_journal (h : m.journal.toList <+: later.journal.toList) :
    later.told = m.told ++ (later.journal.toList.drop m.journal.size).filterMap Event.line? := by
  obtain ⟨added, hadded⟩ := h
  rw [told, told, ← hadded, List.filterMap_append, ← Array.length_toList, List.drop_left]

/-! ## Scans, dumps and runs -/

theorem told_trace (m : Machine) (t : Trace) : (m.trace t).told = m.told := by
  simp [trace, log, told, Event.line?, Event.diagnosticLine?, Event.outputLine?]

theorem stateLines_trace (m : Machine) (t : Trace) : (m.trace t).stateLines = m.stateLines :=
  rfl

theorem told_foldl_note (notes : List Note) (m : Machine) :
    (notes.foldl note m).told =
      m.told ++ (notes.filterMap Note.error?).map Diagnostic.message := by
  induction notes generalizing m with
  | nil => simp
  | cons n rest ih =>
    rw [List.foldl_cons, ih]
    cases n with
    | error d => simp [note, report, told, Note.error?, Event.line?, Event.diagnosticLine?]
    | trace t =>
      rw [note, told_trace]
      rfl

theorem told_scan (m : Machine) (source : String) :
    (m.scan source).1.told =
      m.told ++ (Reading.ofSource m.instructions.has source).errors.map Diagnostic.message :=
  told_foldl_note _ _

theorem dump_eq (m : Machine) :
    m.dump = { m with journal := m.journal ++ (m.stateLines.map Event.dumped).toArray } := by
  have hlines (lines : List String) (m : Machine) :
      lines.foldl (fun m line => m.log (.dumped line)) m =
        { m with journal := m.journal ++ (lines.map Event.dumped).toArray } := by
    induction lines generalizing m with
    | nil => simp
    | cons line rest ih =>
      rw [List.foldl_cons, ih]
      simp [log]
  exact hlines m.stateLines m

/-- No run on the standard instructions ends in a fault. -/
theorem result_of_run (hstandard : m.IsStandard) {fuel : Nat} {ts : List Token}
    {answer : Machine × Except Fault Unit} (h : m.run fuel ts = some answer) : answer.2 = .ok () := by
  obtain ⟨n, last, hsteps, hended⟩ := Run.exists_steps_of_upTo h
  exact (Run.eq_of_ended (hsteps.standard (standard_start hstandard)) hended).2

/-- What has been scanned can be listed. -/
theorem exists_text_scan {source : String} {ts : List Token} (h : (m.scan source).2 = .ok ts) :
    ∃ text, Listing.text ts (Listing.ofTable (m.scan source).1.labels) = .ok text := by
  obtain ⟨-, -, hlabels⟩ := scan_spec h
  have hclear := Listing.clear_of_atBoundary fun b hb => (hlabels b hb).2
  exact ⟨_, (Listing.text_eq_ok_iff _ _ _).mpr ⟨hclear, rfl⟩⟩

end LineAssembly.Machine
