import LineAssembly.Machine.Scan
import LineAssembly.Proofs.Source.Reading

/-! # What a scan leaves on the machine -/

set_option autoImplicit false

namespace LineAssembly.Machine

/-- Notes go to the records of the machine and change nothing else. -/
theorem exists_foldl_note (notes : List Note) (m : Machine) :
    ∃ diagnostics journal errorCount, notes.foldl note m =
      { m with diagnostics := diagnostics, journal := journal, errorCount := errorCount } := by
  induction notes generalizing m with
  | nil => exact ⟨m.diagnostics, m.journal, m.errorCount, rfl⟩
  | cons n rest ih =>
    obtain ⟨diagnostics, journal, errorCount, hrest⟩ := ih (m.note n)
    refine ⟨diagnostics, journal, errorCount, ?_⟩
    rw [List.foldl_cons, hrest]
    cases n <;> rfl

theorem records_foldl_note (notes : List Note) (m : Machine) :
    (notes.foldl note m).diagnostics.toList = m.diagnostics.toList ++ notes.filterMap Note.error? ∧
      (notes.foldl note m).errorCount = m.errorCount + (notes.filterMap Note.error?).length := by
  induction notes generalizing m with
  | nil => simp
  | cons n rest ih =>
    obtain ⟨hdiagnostics, hcount⟩ := ih (m.note n)
    rw [List.foldl_cons, hdiagnostics, hcount]
    cases n with
    | error d =>
      constructor
      · simp [note, report, Note.error?]
      · simp [note, report, Note.error?]
        omega
    | trace t => exact ⟨rfl, rfl⟩

theorem diagnostics_scan (m : Machine) (source : String) :
    (m.scan source).1.diagnostics.toList =
      m.diagnostics.toList ++ (Reading.ofSource m.instructions.has source).errors :=
  (records_foldl_note _ _).1

theorem errorCount_scan (m : Machine) (source : String) :
    (m.scan source).1.errorCount =
      m.errorCount + (Reading.ofSource m.instructions.has source).errors.length :=
  (records_foldl_note _ _).2

theorem errors_eq_nil_of_errorCount {m : Machine} {source : String}
    (h : (m.scan source).1.errorCount = m.errorCount) :
    (Reading.ofSource m.instructions.has source).errors = [] := by
  rw [errorCount_scan] at h
  exact List.length_eq_zero_iff.mp (by omega)

theorem errors_eq_nil_of_diagnostics {m : Machine} {source : String}
    (h : (m.scan source).1.diagnostics = m.diagnostics) :
    (Reading.ofSource m.instructions.has source).errors = [] := by
  have hdiagnostics := m.diagnostics_scan source
  rw [h] at hdiagnostics
  exact List.self_eq_append_right.mp hdiagnostics

theorem exists_scan (m : Machine) (source : String) :
    ∃ diagnostics journal errorCount, (m.scan source).1 =
      { m with
        frozen := true
        labels := Table.putAll [] (Reading.ofSource m.instructions.has source).bindings
        diagnostics := diagnostics
        journal := journal
        errorCount := errorCount } :=
  exists_foldl_note _ _

theorem labels_scan (m : Machine) (source : String) :
    (m.scan source).1.labels =
      Table.putAll [] (Reading.ofSource m.instructions.has source).bindings := by
  obtain ⟨diagnostics, journal, errorCount, hscan⟩ := m.exists_scan source
  rw [hscan]

theorem scan_eq_ok_iff {m : Machine} {source : String} {ts : List Token} :
    (m.scan source).2 = .ok ts ↔
      (Reading.ofSource m.instructions.has source).fault? = none ∧
        (Reading.ofSource m.instructions.has source).tokens = ts := by
  cases hfault : (Reading.ofSource m.instructions.has source).fault? <;> simp [scan, hfault]

theorem scan_of_yields {source : String} {ts : List Token} {bs : List (String × Nat)}
    (h : Reading.Yields (Text.lines source.toList) 0 ts bs) (m : Machine) :
    (m.scan source).2 = .ok ts ∧ (m.scan source).1.labels = Table.putAll [] bs := by
  obtain ⟨hts, hbs, hfault⟩ := h m.instructions.has 1
  exact ⟨scan_eq_ok_iff.mpr ⟨hfault, hts⟩, by rw [labels_scan, ← hbs]; rfl⟩

end LineAssembly.Machine
