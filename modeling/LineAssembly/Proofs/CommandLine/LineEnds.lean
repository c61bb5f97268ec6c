import LineAssembly.Proofs.CommandLine.Interpretation
import LineAssembly.Proofs.Source.Layout

/-! # A source in a file and a source on the command line

Reading a file makes one character of every line end; text on the command line keeps its line ends as
they are. Where every carriage return is a part of a line end, the two are one source in two layouts.
Main statement: the layout of a source is of no account to a scan, and so neither is the way by which the
source came to the program.
-/

set_option autoImplicit false

namespace LineAssembly.CommandLine

open Text

variable {o : Options} {source other : String}

/-- Once the source is there, where it came from does not count. -/
theorem carryOut_congr (hscan : ∀ m : Machine, m.scan other = m.scan source) (program : String)
    (literal : Bool) (fuel : Nat) :
    Options.carryOut { o with program := program, literal := literal } fuel other =
      o.carryOut fuel source := by
  have hmachine : Options.machine { o with program := program, literal := literal } = o.machine := rfl
  rw [Options.carryOut, Options.carryOut, hmachine]
  cases o.machine with
  | error outcome => rfl
  | ok m =>
    simp only
    cases hresult : (m.scan source).2 with
    | error fault =>
      rw [prepare_of_fault hresult, prepare_of_fault (hscan m ▸ hresult), hscan]
      rfl
    | ok ts =>
      obtain ⟨text, htext⟩ := Machine.exists_text_scan hresult
      rw [prepare_of_ok hresult htext, prepare_of_ok (hscan m ▸ hresult) (hscan m ▸ htext),
        Options.ready, hscan]
      rfl

theorem sourceText_of_file (hfile : o.literal = false) {open? : String → Except OpenError ByteArray}
    {text : String} (hopen : open? o.program = .ok text.toUTF8) :
    o.sourceText open? = .ok (String.ofList (unifyNewlines text.toList)) := by
  rw [Options.sourceText, hfile, hopen]
  simp only [decodeSource, Utf8.decode_toUTF8]
  rfl

/-- Each line of a source may be indented, followed by blanks and commented anew. A source with other line
ends is a case of this. So a program does the same with the source in a file as with the source among its
arguments. -/
theorem layout_immaterial :
    (∀ (source other : String), Relaid source other →
      ∀ m : Machine, m.scan other = m.scan source) ∧
    (∀ text : String, ReturnsPaired text.toList →
      ∀ m : Machine, m.scan text = m.scan (String.ofList (unifyNewlines text.toList))) ∧
    ∀ (o : Options) (text : String) (open? other? : String → Except OpenError ByteArray)
      (filed literal : List String), ReturnsPaired text.toList →
      Options.parse filed = .ok o → o.literal = false → open? o.program = .ok text.toUTF8 →
      Options.parse literal = .ok { o with program := text, literal := true } →
      ∀ fuel, run fuel open? filed = run fuel other? literal := by
  refine ⟨fun source other => Machine.scan_of_relaid, ?_, ?_⟩
  · intro text hpaired
    exact Machine.scan_of_relaid (relaid_of_returnsPaired hpaired)
  · intro o text open? other? filed literal hpaired hfiled hfile hopen hliteral fuel
    rw [run_of_parse hfiled, run_of_parse hliteral, Options.execute, Options.execute,
      sourceText_of_file hfile hopen]
    exact (carryOut_congr (Machine.scan_of_relaid (relaid_of_returnsPaired hpaired)) text true fuel).symm

/-- A statement that ends in a semicolon, and a label. -/
def bare : String :=
  "PRINT [a] ;\nend:"

/-- The same two lines, indented and behind blanks of several kinds, the first with a comment. -/
def dressed : String :=
  "\t PRINT [a] ;\u2003;;; end:\n end:\x0b\r"

def paired : String :=
  "SET [a] 2\r\nPRINT [a]\r\n"

theorem layout_immaterial_dressed :
    Relaid bare dressed ∧ Machine.standard.scan dressed = Machine.standard.scan bare ∧
    run 20 (fun _ => .ok paired.toUTF8) ["-ra", "paired.asm"] =
      run 20 (fun _ => .error .notFound) ["-ra", "--source", paired] ∧
    (run 20 (fun _ => .ok paired.toUTF8) ["-ra", "paired.asm"]).map (·.transcript.stdout) =
      some "2\n" := by
  have hrelaid : Relaid bare dressed := by
    have hlines : lines bare.toList = ["PRINT [a] ;".toList, "end:".toList] := by decide
    have hpadding {text : List Char} (h : text.all (fun c => isBlank c && c != '\n') = true) :
        IsPadding text := by simpa [IsPadding] using h
    rw [Relaid, hlines]
    have hfirst : Line.Relaid "PRINT [a] ;".toList _ :=
      .commented ['\t', ' '] ['\u2003'] "; end:".toList (hpadding (by decide)) (hpadding (by decide))
        (by decide) (by decide)
    have hsecond : Line.Relaid "end:".toList _ :=
      .padded [' '] ['\x0b', '\r'] (hpadding (by decide)) (hpadding (by decide))
    exact ⟨_, .cons hfirst (.cons hsecond .nil), by decide⟩
  have hpaired : ReturnsPaired paired.toList := by decide
  have hfiled : Options.parse ["-ra", "paired.asm"] =
      .ok ⟨"paired.asm", [some "a"], false, false, false, false⟩ := by
    decide +kernel
  have hliteral : Options.parse ["-ra", "--source", paired] =
      .ok ⟨paired, [some "a"], true, false, false, false⟩ := by
    decide +kernel
  obtain ⟨hscan, -, hrun⟩ := layout_immaterial
  exact ⟨hrelaid, hscan bare dressed hrelaid Machine.standard,
    hrun _ paired _ _ _ _ hpaired hfiled rfl rfl hliteral 20, by decide +kernel⟩

end LineAssembly.CommandLine
