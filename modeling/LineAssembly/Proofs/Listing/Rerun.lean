import LineAssembly.Proofs.Machine.StrayEnds
import LineAssembly.Proofs.Listing.RoundTrip
import LineAssembly.Proofs.Source.Lines

/-! # Running a listing

A listing loses the tokens outside statements. Where these are ends only, the normal form of the stream is
the stream without its stray ends. Reading the listing reports nothing that reading the source did not
report. Main statement: a program of standard instructions and its listing have the same runs.
-/

set_option autoImplicit false

namespace LineAssembly

open Text

namespace Listing

/-- The tokens that no statement holds, where one may be open at the front. -/
def strays : Bool → List Token → List Token
  | _, [] => []
  | false, .instruction _ :: rest => strays true rest
  | false, t :: rest => t :: strays false rest
  | true, t :: rest => strays (stillOpen true [t]) rest

theorem strays_append (isOpen : Bool) (ts others : List Token) :
    strays isOpen (ts ++ others) = strays isOpen ts ++ strays (stillOpen isOpen ts) others := by
  induction ts generalizing isOpen with
  | nil => rfl
  | cons t rest ih =>
    cases isOpen with
    | true => rw [List.cons_append, strays, strays, ih, stillOpen_cons true t rest]
    | false => cases t <;> simp [strays, stillOpen, ih]

/-- Every statement is ended before the next one begins, and nothing but ends is outside. -/
structure Loose (isOpen : Bool) (ts : List Token) : Prop where
  uninterrupted : ∀ i name, ts[i]? = some (.instruction name) → stillOpen isOpen (ts.take i) = false
  strays : ∀ t ∈ strays isOpen ts, t = .statementEnd

namespace Loose

variable {isOpen : Bool} {t : Token} {ts : List Token}

theorem take (h : Loose isOpen ts) (n : Nat) : Loose isOpen (ts.take n) := by
  constructor
  · intro i name hi
    rw [List.getElem?_take] at hi
    split_ifs at hi with hlt
    rw [List.take_take, Nat.min_eq_left hlt.le]
    exact h.uninterrupted i name hi
  · intro t ht
    apply h.strays
    rw [← List.take_append_drop n ts, strays_append]
    exact List.mem_append_left _ ht

theorem tail (h : Loose isOpen (t :: ts)) : Loose (stillOpen isOpen [t]) ts := by
  constructor
  · intro i name hi
    have hnext := h.uninterrupted (i + 1) name hi
    rwa [List.take_succ_cons, stillOpen_cons] at hnext
  · intro u hu
    apply h.strays
    rw [← List.singleton_append, strays_append]
    exact List.mem_append_right _ hu

theorem normaliseFrom_eq (h : Loose isOpen ts) (hclosed : stillOpen isOpen ts = false) :
    normaliseFrom isOpen ts = withoutStrayEnds isOpen ts := by
  induction ts generalizing isOpen with
  | nil =>
    cases hclosed
    rfl
  | cons t rest ih =>
    rw [stillOpen_cons] at hclosed
    have hrest := ih h.tail hclosed
    cases isOpen with
    | false =>
      cases t with
      | instruction name => exact congrArg _ hrest
      | statementEnd => exact hrest
      | value v => cases h.strays (.value v) List.mem_cons_self
      | register name => cases h.strays (.register name) List.mem_cons_self
    | true =>
      cases t with
      | instruction name => cases h.uninterrupted 0 name rfl
      | statementEnd | value v | register name => exact congrArg _ hrest

theorem position_eq_place (h : Loose false ts) {index : Nat} (hindex : AtBoundary ts index) :
    position ts index = place ts index := by
  have hnormal : normalise (ts.take index) = withoutStrayEnds false (ts.take index) :=
    (h.take index).normaliseFrom_eq hindex.2
  rw [place, ← hnormal, position]
  split_ifs with hinside
  · rfl
  · rw [List.take_of_length_le (by omega)]

end Loose

end Listing

theorem Argument.error?_of_operand {a : Argument} (h : a.token ≠ .statementEnd) : a.error? = none := by
  cases a with
  | literal | label | register | unreadable | quoted | malformed => rfl
  | absent | outOfRange => exact absurd rfl h

namespace Listing

open Reading

/-- A token that can be written, and whose mnemonic is among the known ones. -/
def Known (known : String → Bool) (t : Token) : Prop :=
  t.Printable ∧ ∀ name, t = .instruction name → known name = true

variable {known : String → Bool}

theorem errors_row {r : Row} (h : r.All IsLabelName (Known known)) (line base : Nat) :
    (ofLine known line base (Line.ofText r.text.toList)).errors = [] := by
  cases r with
  | label name =>
    rw [Row.text, ofLine_labelLine h]
    rfl
  | statement s =>
    have hwritable : ∀ t ∈ s.openTokens, t.Writable := fun t ht => (h t ht).1.writable
    obtain ⟨hprintable, hknown⟩ := h (.instruction s.mnemonic) List.mem_cons_self
    have hmnemonic : (ofMnemonic known line s.mnemonic).errors = [] := by
      rw [errors, ofMnemonic, hknown s.mnemonic rfl]
      rfl
    have harguments : ∀ a ∈ (operandWords s).map Argument.ofWord,
        a.fault? line = none ∧ a.error? = none := by
      intro a ha
      obtain ⟨w, hw, rfl⟩ := List.mem_map.mp ha
      obtain ⟨o, ho, rfl⟩ := List.mem_map.mp hw
      obtain ⟨htoken, hfault⟩ := ofWord_operandText (writable_of_mem_operands hwritable ho)
      refine ⟨hfault line, Argument.error?_of_operand ?_⟩
      rw [htoken]
      intro hend
      cases o <;> cases hend
    rw [Row.text, ofText_statementLine_of_faithful hwritable hprintable.2, ofLine,
      errors_andThen rfl, hmnemonic, errors_ofArguments fun a ha => (harguments a ha).1,
      List.filterMap_eq_nil_iff.mpr fun a ha => (harguments a ha).2]
    rfl
  | stray t =>
    rcases eq_or_ne t .statementEnd with rfl | hoperand
    · rfl
    · rw [toList_text_stray hoperand]
      rfl

theorem errors_rows {rs : List Row} (h : ∀ r ∈ rs, r.All IsLabelName (Known known))
    (line base : Nat) : (ofLines known line base (rs.map fun r => r.text.toList)).errors = [] := by
  induction rs generalizing line base with
  | nil => rfl
  | cons r rest ih =>
    have hr := h r List.mem_cons_self
    have hfault := (yields_row (hr.imp fun t ht => ht.1) base known line).2.2
    have hone : ofLines known line base [r.text.toList] =
        ofLine known line base (Line.ofText r.text.toList) := andThen_empty _
    rw [hone] at hfault
    rw [List.map_cons, ofLines, errors_andThen hfault, errors_row hr, List.nil_append]
    exact ih (fun x hx => h x (List.mem_cons_of_mem _ hx)) _ _

theorem errors_join {rs : List Row} (h : ∀ r ∈ rs, r.All IsLabelName (Known known)) :
    (ofSource known (join (rs.map Row.text))).errors = [] := by
  have hrows : ∀ r ∈ rs, r.All IsLabelName Token.Printable :=
    fun r hr => (h r hr).imp fun t ht => ht.1
  have hfault := (yields_rows hrows 0 known 1).2.2
  rw [ofSource, lines_join fun r hr => (hrows r hr).imp fun t ht => ht.writable, ofLines_append,
    errors_andThen hfault, errors_rows h]
  rfl

end Listing

namespace Machine

variable {m : Machine} {source : String} {ts : List Token}

theorem sameState_scan (h : (Reading.ofSource m.instructions.has source).errors = []) :
    m.SameState (m.scan source).1 := by
  have hcount := m.errorCount_scan source
  rw [h] at hcount
  obtain ⟨diagnostics, journal, errorCount, hscan⟩ := m.exists_scan source
  rw [hscan] at hcount ⊢
  exact ⟨rfl, rfl, hcount, rfl⟩

theorem faithful_of_has {name : String} (h : standard.instructions.has name = true) :
    Faithful name := by
  have hall : ∀ n ∈ standard.instructions.names, Faithful n := by decide
  exact hall name ((Table.has_iff_mem_names _ _).mp h)

theorem known_of_mem_scan (hstandard : m.IsStandard) (hscan : (m.scan source).2 = .ok ts)
    (herrors : (Reading.ofSource m.instructions.has source).errors = []) :
    ∀ t ∈ ts, Listing.Known standard.instructions.has t := by
  intro t ht
  have hwritable := (scan_spec hscan).1 t ht
  have hknown : ∀ name, t = .instruction name → standard.instructions.has name = true := by
    rintro name rfl
    rw [← hstandard.has_eq]
    exact has_of_mem_scan hscan herrors ht
  cases t with
  | instruction name => exact ⟨⟨hwritable, faithful_of_has (hknown name rfl)⟩, hknown⟩
  | value v | register name | statementEnd => exact ⟨hwritable, hknown⟩

end Machine

namespace Listing

/-- The listing can be written and is read without a message. From one state, a run of the source's tokens
and labels and a run of the listing's end alike or not at all. -/
theorem sameRuns_rescan {m : Machine} {source : String} {ts : List Token} (hstandard : m.IsStandard)
    (hscan : (m.scan source).2 = .ok ts) (hquiet : (m.scan source).1.diagnostics = m.diagnostics)
    (hjv : .instruction "JV" ∉ ts) (hstrays : ∀ t ∈ strays false ts, t = .statementEnd)
    (other : Machine) (hother : other.IsStandard) :
    ∃ written ts', text ts (ofTable (m.scan source).1.labels) = .ok written ∧
      (other.scan written).2 = .ok ts' ∧ other.SameState (other.scan written).1 ∧
        ∀ a b : Machine, a.IsStandard → b.IsStandard → a.SameState b →
          a.labels = (m.scan source).1.labels → b.labels = (other.scan written).1.labels →
            a.SameRuns ts b ts' := by
  obtain ⟨-, hnames, hlabels⟩ := Machine.scan_spec hscan
  have hloose : Loose false ts := ⟨Machine.uninterrupted_scan hscan, hstrays⟩
  have hknown := Machine.known_of_mem_scan hstandard hscan (Machine.errors_eq_nil_of_diagnostics hquiet)
  have hnamed := isLabelName_ofTable fun b hb => (hlabels b hb).1
  have hclear := clear_of_atBoundary fun b hb => (hlabels b hb).2
  obtain ⟨hread, hbound⟩ :=
    scan_join (fun t ht => (hknown t ht).1) hnamed (by rwa [names_ofTable]) hclear other
  have hnormal : normalise ts = withoutStrayEnds false ts :=
    hloose.normaliseFrom_eq (Machine.stillOpen_scan hscan)
  have hboundaries : ∀ name index, (m.scan source).1.labels.get? name = some index →
      AtBoundary ts index := fun name index h => (hlabels _ (Table.mem_of_get? h)).2
  refine ⟨_, _, (text_eq_ok_iff _ _ _).mpr ⟨hclear, rfl⟩, hread, ?_, ?_⟩
  · apply Machine.sameState_scan
    rw [hother.has_eq]
    exact errors_join (all_of_mem_rows hnamed hknown)
  · intro a b ha hb hsame halabels hblabels
    -- A label is read at its place in the normal form, which is its place without the stray ends.
    have hmoved : ∀ name, b.labels.get? name = (a.labels.get? name).map (place ts) := by
      intro name
      rw [hblabels, halabels, hbound, get?_ofTable, Option.map_map]
      refine Option.map_congr fun index hindex => ?_
      exact hloose.position_eq_place (hboundaries name index hindex)
    rw [hnormal]
    rw [← halabels] at hboundaries
    exact Machine.Relocated.sameRuns ⟨hsame, ha, hb, hmoved⟩ hboundaries hjv

def trailing : String :=
  "SET [a] 2 ? ?\nagain:\nSUB [a] 1 -\nPRINT [a]\nJNZ [a] again\nPRINT [b] ?"

def trailingTokens : List Token :=
  [.instruction "SET", .register "a", .value (.int 2), .statementEnd, .statementEnd, .statementEnd,
    .instruction "SUB", .register "a", .value (.int 1), .statementEnd, .statementEnd,
    .instruction "PRINT", .register "a", .statementEnd,
    .instruction "JNZ", .register "a", .value (.label "again"), .statementEnd,
    .instruction "PRINT", .register "b", .statementEnd, .statementEnd]

def counter : Machine :=
  { Machine.standard with registers := [("a", .empty)] }

/-- Ends are lost in front of the label and in front of the token that stops the run. -/
theorem sameRuns_rescan_trailing :
    (counter.scan trailing).2 = .ok trailingTokens ∧
    (counter.scan trailing).1.labels.get? "again" = some 6 ∧
    ∃ written ts', text trailingTokens (ofTable (counter.scan trailing).1.labels) = .ok written ∧
      (counter.scan written).2 = .ok ts' ∧
      ∃ fuel final, (counter.scan written).1.run fuel ts' = some (final, .ok ()) ∧
        final.registers = [("a", .int 0)] ∧ final.output = #["1", "0"] ∧
          final.errorCount = 1 ∧ final.halted = true := by
  have hstandard : counter.IsStandard := fun _ => rfl
  have hscan : (counter.scan trailing).2 = .ok trailingTokens := by decide +kernel
  have hquiet : (counter.scan trailing).1.diagnostics = counter.diagnostics := by decide +kernel
  have hrun : ((counter.scan trailing).1.run 40 trailingTokens).map
      (fun answer => (answer.1.registers, answer.1.output, answer.1.errorCount, answer.1.halted)) =
        some ([("a", .int 0)], #["1", "0"], 1, true) := by
    decide +kernel
  obtain ⟨⟨first, result⟩, hfirst, hstate⟩ := Option.map_eq_some_iff.mp hrun
  obtain ⟨written, ts', hwritten, hread, hsecond, hsame⟩ :=
    sameRuns_rescan hstandard hscan hquiet (by decide) (by decide) counter hstandard
  have hstart := Machine.sameState_scan (Machine.errors_eq_nil_of_diagnostics hquiet)
  obtain ⟨hends, hagree⟩ := hsame _ _ (Machine.isStandard_scan hstandard trailing)
    (Machine.isStandard_scan hstandard written) (hstart.symm.trans hsecond) rfl rfl
  obtain ⟨fuel, ⟨final, result'⟩, hfinal⟩ := hends.mp ⟨40, _, hfirst⟩
  obtain ⟨-, rfl, hstate'⟩ := hagree 40 fuel first final result result' hfirst hfinal
  simp only [Prod.mk.injEq] at hstate
  obtain ⟨hregisters, houtput, hcount, hhalted⟩ := hstate
  exact ⟨hscan, by decide +kernel, written, ts', hwritten, hread, fuel, final, hfinal,
    hstate'.registers.trans hregisters, hstate'.output.trans houtput,
    hstate'.errorCount.trans hcount, hstate'.halted.trans hhalted⟩

end Listing

end LineAssembly
