import LineAssembly.Machine.Configuration
import LineAssembly.Proofs.Machine.Scan
import LineAssembly.Proofs.Table
import LineAssembly.Proofs.Text.Pieces

/-! # Sources one after the other

What a line is read as does not depend on where it stands. Only the numbers do: an error and a fault give
the line, and a binding the token index. Main statement: scanning two sources with a line feed between
them does what the two scans do one after the other, with the numbers of the second moved.
-/

set_option autoImplicit false

namespace LineAssembly

/-- The same message about a line that stands `n` lines further down. -/
def Diagnostic.below (n : Nat) : Diagnostic → Diagnostic
  | .line number error => .line (number + n) error
  | d => d

def Fault.below (n : Nat) : Fault → Fault
  | .quotedArgument number word => .quotedArgument (number + n) word
  | fault => fault

def Trace.moved (n k : Nat) : Trace → Trace
  | .labelBound name index => .labelBound name (index + k)
  | .malformedArgument number word => .malformedArgument (number + n) word
  | t => t

def Note.moved (n k : Nat) : Note → Note
  | .error d => .error (d.below n)
  | .trace t => .trace (t.moved n k)

theorem Note.error?_moved (n k : Nat) (note : Note) :
    (note.moved n k).error? = note.error?.map (Diagnostic.below n) := by
  cases note <;> rfl

namespace Reading

variable (known : String → Bool) (n k : Nat)

/-- The same reading `n` lines and `k` tokens further on. -/
def moved (r : Reading) : Reading where
  tokens := r.tokens
  bindings := Table.mapEntries (· + k) r.bindings
  notes := r.notes.map (Note.moved n k)
  fault? := r.fault?.map (Fault.below n)

theorem errors_moved (r : Reading) : (r.moved n k).errors = r.errors.map (Diagnostic.below n) := by
  rw [errors, moved, List.filterMap_map, errors, List.map_filterMap]
  exact List.filterMap_congr fun note _ => note.error?_moved n k

theorem moved_andThen (first second : Reading) :
    (first.andThen second).moved n k = (first.moved n k).andThen (second.moved n k) := by
  cases h : first.fault? <;> simp [andThen, moved, h, Table.mapEntries]

theorem ofArgument_moved (line : Nat) (a : Argument) :
    ofArgument (line + n) a = (ofArgument line a).moved n k := by
  cases a <;> rfl

theorem ofArguments_moved (line : Nat) (arguments : List Argument) :
    ofArguments (line + n) arguments = (ofArguments line arguments).moved n k := by
  induction arguments with
  | nil => rfl
  | cons a rest ih => rw [ofArguments, ofArguments, moved_andThen, ih, ofArgument_moved n k]

theorem ofMnemonic_moved (line : Nat) (name : String) :
    ofMnemonic known (line + n) name = (ofMnemonic known line name).moved n k := by
  rw [ofMnemonic, ofMnemonic]
  split <;> rfl

theorem ofLabel_moved (line index : Nat) (name : String) (shared : Bool) :
    ofLabel (line + n) (index + k) name shared = (ofLabel line index name shared).moved n k := by
  rw [ofLabel, ofLabel]
  split_ifs <;> rfl

theorem ofLine_moved (line index : Nat) (l : Line) :
    ofLine known (line + n) (index + k) l = (ofLine known line index l).moved n k := by
  cases l with
  | blank => rfl
  | label name shared => exact ofLabel_moved n k line index name shared
  | statement mnemonic arguments =>
    rw [ofLine, ofLine, moved_andThen, ← ofMnemonic_moved, ← ofArguments_moved]

theorem ofLines_moved (line index : Nat) (ls : List (List Char)) :
    ofLines known (line + n) (index + k) ls = (ofLines known line index ls).moved n k := by
  induction ls generalizing line index with
  | nil => rfl
  | cons text rest ih =>
    have hrest := ih (line + 1) (index + (ofLine known line index (Line.ofText text)).tokens.length)
    rw [Nat.add_right_comm line 1 n, Nat.add_right_comm index _ k] at hrest
    rw [ofLines, ofLines, ofLine_moved, moved_andThen, ← hrest]
    rfl

end Reading

def lineCount (source : String) : Nat :=
  source.toList.count '\n' + 1

theorem length_lines (text : List Char) : (Text.lines text).length = text.count '\n' + 1 := by
  induction text with
  | nil => rfl
  | cons c rest ih =>
    rw [Text.lines] at ih ⊢
    by_cases h : c = '\n'
    · simp [Text.splitAt, h, ih]
    · cases hs : Text.splitAt '\n' rest with
      | nil => exact absurd hs (Text.splitAt_ne_nil '\n' rest)
      | cons piece pieces =>
        rw [hs] at ih
        simpa [Text.splitAt, h, hs] using ih

theorem Reading.ofSource_append (known : String → Bool) (first second : String) :
    ofSource known (first ++ "\n" ++ second) =
      (ofSource known first).andThen
        ((ofSource known second).moved (lineCount first) (ofSource known first).tokens.length) := by
  have hlines : Text.lines (first ++ "\n" ++ second).toList =
      Text.lines first.toList ++ Text.lines second.toList := by
    have htext : (first ++ "\n" ++ second).toList = first.toList ++ '\n' :: second.toList := by simp
    rw [htext]
    exact Text.splitAt_append_separator '\n' first.toList second.toList
  rw [ofSource, hlines, ofLines_append, length_lines, ofLines_moved]
  rfl

namespace Machine

/-- The tokens of two sources follow one another, labels of the second replace those of the first, and
each error is reported once. A fault of the second source still leaves its labels and errors. -/
theorem scan_append (m : Machine) {first : String} {ts : List Token}
    (h : (m.scan first).2 = .ok ts) (second : String) :
    (m.scan (first ++ "\n" ++ second)).2 =
      (match (m.scan second).2 with
      | .ok others => .ok (ts ++ others)
      | .error fault => .error (fault.below (lineCount first))) ∧
    (m.scan (first ++ "\n" ++ second)).1.labels =
      (m.scan first).1.labels.putAll (Table.mapEntries (· + ts.length) (m.scan second).1.labels) ∧
    ∃ reported others : List Diagnostic,
      (m.scan first).1.diagnostics.toList = m.diagnostics.toList ++ reported ∧
      (m.scan second).1.diagnostics.toList = m.diagnostics.toList ++ others ∧
      (m.scan (first ++ "\n" ++ second)).1.diagnostics.toList =
        m.diagnostics.toList ++ reported ++ others.map (Diagnostic.below (lineCount first)) := by
  obtain ⟨hfault, rfl⟩ := scan_eq_ok_iff.mp h
  refine ⟨?_, ?_, _, _, m.diagnostics_scan first, m.diagnostics_scan second, ?_⟩
  · simp only [scan, Reading.ofSource_append, Reading.andThen_of_none hfault, Reading.moved]
    cases (Reading.ofSource m.instructions.has second).fault? <;> rfl
  · simp only [labels_scan, Reading.ofSource_append, Reading.andThen_of_none hfault, Reading.moved]
    rw [Table.putAll_append, Table.mapEntries_putAll]
    exact (Table.putAll_putAll _ _).symm
  · rw [diagnostics_scan, Reading.ofSource_append, Reading.errors_andThen hfault,
      Reading.errors_moved, List.append_assoc]

/-- The second source binds the label of the first again, and a fault ends it on its third line. -/
theorem scan_append_rebound :
    (standard.scan "L:\nSET [a] 2147483648").2 =
      .ok [.instruction "SET", .register "a", .statementEnd, .statementEnd] ∧
    (standard.scan ("L:\nSET [a] 2147483648" ++ "\n" ++ "FOO L\nL:\nPRINT \x22x\x22")).2 =
      .error (.quotedArgument 5 "\x22x\x22") ∧
    (standard.scan ("L:\nSET [a] 2147483648" ++ "\n" ++ "FOO L\nL:\nPRINT \x22x\x22")).1.labels =
      [("L", 7)] ∧
    (standard.scan ("L:\nSET [a] 2147483648" ++ "\n" ++
        "FOO L\nL:\nPRINT \x22x\x22")).1.diagnostics.toList =
      [.line 2 (.literalOutOfRange "2147483648"), .line 3 (.unknownInstruction "FOO")] := by
  have hfirst : (standard.scan "L:\nSET [a] 2147483648").2 =
      .ok [.instruction "SET", .register "a", .statementEnd, .statementEnd] := by
    decide +kernel
  have hsecond : (standard.scan "FOO L\nL:\nPRINT \x22x\x22").2 =
      .error (.quotedArgument 3 "\x22x\x22") := by
    decide +kernel
  obtain ⟨hresult, hlabels, reported, others, hreported, hothers, hall⟩ :=
    standard.scan_append hfirst "FOO L\nL:\nPRINT \x22x\x22"
  refine ⟨hfirst, ?_, ?_, ?_⟩
  · rw [hresult, hsecond]
    rfl
  · rw [hlabels]
    decide +kernel
  · have hone : reported = [.line 2 (.literalOutOfRange "2147483648")] :=
      hreported.symm.trans (by decide +kernel)
    have htwo : others = [.line 1 (.unknownInstruction "FOO")] :=
      hothers.symm.trans (by decide +kernel)
    rw [hall, hone, htwo]
    rfl

end Machine

end LineAssembly
