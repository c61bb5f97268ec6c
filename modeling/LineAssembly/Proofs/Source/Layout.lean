import LineAssembly.Machine.Scan
import LineAssembly.Proofs.Text.Pieces
import Mathlib.Data.List.Forall2

/-! # The layout of a source

A line may be indented, followed by blanks and, behind at least one blank, by a comment. Without that
blank a semicolon at the end of the line would join those of the comment. Main statement: no such change
to any of its lines changes what a source is read as, the numbers of its lines included. A line that ends
in a carriage return and a line feed is a case of it.
-/

set_option autoImplicit false

namespace LineAssembly

namespace Text

/-- Blanks that do not end a line. -/
def IsPadding (text : List Char) : Prop :=
  ∀ c ∈ text, isBlank c = true ∧ c ≠ '\n'

theorem IsPadding.semicolon_not_mem {text : List Char} (h : IsPadding text) : ';' ∉ text :=
  fun hmem => absurd (h ';' hmem).1 (by decide)

theorem IsPadding.newline_not_mem {text : List Char} (h : IsPadding text) : '\n' ∉ text :=
  fun hmem => (h '\n' hmem).2 rfl

theorem beforeComment_append_of_not_mem {before : List Char} (h : ';' ∉ before) (text : List Char) :
    beforeComment (before ++ text) = before ++ beforeComment text := by
  induction before with
  | nil => rfl
  | cons c rest ih =>
    obtain ⟨hc, hrest⟩ := not_or.mp (mt List.mem_cons.mpr h)
    rw [List.cons_append, beforeComment, if_neg fun hmark => hc hmark.1.symm, ih hrest]
    rfl

/-- Behind a text without the mark a comment begins where its mark is, if the text does not end in a
semicolon. -/
theorem beforeComment_append_mark {text : List Char} (h : ¬ HasMark text)
    (hlast : text.getLast? ≠ some ';') (comment : List Char) :
    beforeComment (text ++ ';' :: ';' :: comment) = text := by
  induction text with
  | nil => rfl
  | cons c rest ih =>
    obtain ⟨hc, hrest⟩ := not_or.mp (mt hasMark_cons_iff.mpr h)
    cases rest with
    | nil =>
      have hne : c ≠ ';' := fun he => hlast (by rw [he]; rfl)
      rw [List.singleton_append, beforeComment, if_neg fun hmark => hne hmark.1]
      rfl
    | cons d others =>
      rw [List.cons_append, beforeComment, if_neg (by simpa using hc), ih hrest (by simpa using hlast)]

theorem trim_append {before after : List Char} (hbefore : ∀ c ∈ before, isBlank c = true)
    (hafter : ∀ c ∈ after, isBlank c = true) (text : List Char) :
    trim (before ++ text ++ after) = trim text := by
  have hreverse : ∀ c ∈ after.reverse, isBlank c = true := by simpa using hafter
  rw [trim, List.append_assoc, List.dropWhile_append_of_pos hbefore, List.dropWhile_append]
  split
  · rename_i hblank
    have hnil : text.dropWhile isBlank = [] := List.isEmpty_iff.mp hblank
    rw [List.dropWhile_eq_nil_iff.mpr hafter, trim, hnil]
  · rw [List.reverse_append, List.dropWhile_append_of_pos hreverse, trim]

end Text

open Text

namespace Line

/-- A line laid out anew: blanks are added at its ends, and perhaps a comment behind them. -/
inductive Relaid (line : List Char) : List Char → Prop where
  | padded (before after : List Char) (hbefore : IsPadding before) (hafter : IsPadding after) :
    Relaid line (before ++ line ++ after)
  | commented (before after comment : List Char) (hbefore : IsPadding before)
    (hafter : IsPadding after) (hne : after ≠ []) (hcomment : '\n' ∉ comment) :
    Relaid line (before ++ line ++ after ++ ';' :: ';' :: comment)

namespace Relaid

variable {line other : List Char}

theorem newline_not_mem (h : Relaid line other) (hline : '\n' ∉ line) : '\n' ∉ other := by
  cases h with
  | padded before after hbefore hafter =>
    simp only [List.mem_append, not_or]
    exact ⟨⟨hbefore.newline_not_mem, hline⟩, hafter.newline_not_mem⟩
  | commented before after comment hbefore hafter hne hcomment =>
    simp only [List.mem_append, List.mem_cons, not_or]
    exact ⟨⟨⟨hbefore.newline_not_mem, hline⟩, hafter.newline_not_mem⟩, by decide, by decide,
      hcomment⟩

/-- A comment that the line has already takes everything behind it with it. Else what is left is the line
up to the new comment. -/
theorem exists_beforeComment (h : Relaid line other) : ∃ before after,
    IsPadding before ∧ IsPadding after ∧
      beforeComment other = before ++ beforeComment line ++ after := by
  by_cases hmark : HasMark line
  · cases h with
    | padded before after hbefore hafter =>
      refine ⟨before, [], hbefore, nofun, ?_⟩
      rw [List.append_assoc, beforeComment_append_of_not_mem hbefore.semicolon_not_mem,
        beforeComment_append_of_hasMark hmark, List.append_nil]
    | commented before after comment hbefore hafter hne hcomment =>
      refine ⟨before, [], hbefore, nofun, ?_⟩
      rw [List.append_assoc, List.append_assoc,
        beforeComment_append_of_not_mem hbefore.semicolon_not_mem,
        beforeComment_append_of_hasMark hmark, List.append_nil]
  · have hline : beforeComment line = line := beforeComment_of_not_hasMark hmark
    have hwhole {after : List Char} (hafter : IsPadding after) :
        beforeComment (line ++ after) = line ++ after :=
      beforeComment_append_of_not_hasMark hmark hafter.semicolon_not_mem
    cases h with
    | padded before after hbefore hafter =>
      refine ⟨before, after, hbefore, hafter, ?_⟩
      rw [List.append_assoc, beforeComment_append_of_not_mem hbefore.semicolon_not_mem,
        hwhole hafter, hline, List.append_assoc]
    | commented before after comment hbefore hafter hne hcomment =>
      have hunmarked : ¬ HasMark (line ++ after) := hwhole hafter ▸ not_hasMark_beforeComment _
      have hlast : (line ++ after).getLast? ≠ some ';' := by
        rw [List.getLast?_append_of_ne_nil _ hne]
        exact fun he => hafter.semicolon_not_mem (List.mem_of_getLast? he)
      refine ⟨before, after, hbefore, hafter, ?_⟩
      rw [List.append_assoc before, List.append_assoc before,
        beforeComment_append_of_not_mem hbefore.semicolon_not_mem,
        beforeComment_append_mark hunmarked hlast, hline, List.append_assoc]

theorem content_eq (h : Relaid line other) : content other = content line := by
  obtain ⟨before, after, hbefore, hafter, hother⟩ := h.exists_beforeComment
  rw [content, content, hother]
  exact trim_append (fun c hc => (hbefore c hc).1) (fun c hc => (hafter c hc).1) _

theorem ofText_eq (h : Relaid line other) : ofText other = ofText line := by
  rw [ofText, ofText, h.content_eq]

theorem newline_not_mem_of_mem {ls others : List (List Char)} (h : List.Forall₂ Relaid ls others)
    (hls : ∀ line ∈ ls, '\n' ∉ line) : ∀ line ∈ others, '\n' ∉ line := by
  induction h with
  | nil => nofun
  | cons hfirst _ ih =>
    obtain ⟨hline, hrest⟩ := List.forall_mem_cons.mp hls
    exact List.forall_mem_cons.mpr ⟨hfirst.newline_not_mem hline, ih hrest⟩

end Relaid

end Line

/-- A source with each of its lines laid out anew. -/
def Relaid (source other : String) : Prop :=
  ∃ ls, List.Forall₂ Line.Relaid (lines source.toList) ls ∧ other.toList = ['\n'].intercalate ls

theorem Reading.ofLines_relaid {known : String → Bool} {ls others : List (List Char)}
    (h : List.Forall₂ Line.Relaid ls others) (line index : Nat) :
    ofLines known line index others = ofLines known line index ls := by
  induction h generalizing line index with
  | nil => rfl
  | cons hfirst _ ih => rw [ofLines, ofLines, hfirst.ofText_eq, ih]

theorem Relaid.lines {source other : String} (h : Relaid source other) :
    List.Forall₂ Line.Relaid (Text.lines source.toList) (Text.lines other.toList) := by
  obtain ⟨ls, hrelaid, hother⟩ := h
  have hne : ls ≠ [] := by
    rintro rfl
    exact splitAt_ne_nil '\n' source.toList (List.forall₂_nil_right_iff.mp hrelaid)
  have hnewline : ∀ line ∈ ls, '\n' ∉ line :=
    Line.Relaid.newline_not_mem_of_mem hrelaid fun _ => not_mem_of_mem_splitAt
  have hlines : Text.lines other.toList = ls := by
    rw [hother, Text.lines, splitAt_intercalate hne hnewline]
  rw [hlines]
  exact hrelaid

/-- A source laid out anew has the same tokens, bindings and messages, or the same fault. -/
theorem Machine.scan_of_relaid {source other : String} (h : Relaid source other) (m : Machine) :
    m.scan other = m.scan source := by
  have hreading : Reading.ofSource m.instructions.has other =
      Reading.ofSource m.instructions.has source :=
    Reading.ofLines_relaid h.lines 1 0
  rw [scan, scan, hreading]

/-! ## Line ends -/

namespace Text

/-- Every carriage return is a part of a line end. -/
def ReturnsPaired (text : List Char) : Prop :=
  ∀ before after, text = before ++ '\r' :: after → after.head? = some '\n'

theorem returnsPaired_cons_iff {c : Char} {rest : List Char} :
    ReturnsPaired (c :: rest) ↔ (c = '\r' → rest.head? = some '\n') ∧ ReturnsPaired rest := by
  constructor
  · intro h
    constructor
    · rintro rfl
      exact h [] rest rfl
    · rintro before after rfl
      exact h (c :: before) after rfl
  · rintro ⟨hc, hrest⟩ before after htext
    cases before with
    | nil =>
      cases htext
      exact hc rfl
    | cons d before =>
      cases htext
      exact hrest before after rfl

instance decidableReturnsPaired : (text : List Char) → Decidable (ReturnsPaired text)
  | [] => .isTrue fun before after htext => by simp at htext
  | _ :: rest =>
    have := decidableReturnsPaired rest
    decidable_of_iff' _ returnsPaired_cons_iff

/-- The line with its end of two characters keeps the first of them. -/
theorem forall₂_lines_unifyNewlines {text : List Char} (h : ReturnsPaired text) :
    List.Forall₂ (fun line other => other = line ∨ other = line ++ ['\r'])
      (lines (unifyNewlines text)) (lines text) := by
  fun_induction unifyNewlines text with
  | case1 => exact .cons (.inl rfl) .nil
  | case2 rest ih =>
    have hrest : ReturnsPaired rest := (returnsPaired_cons_iff.mp (returnsPaired_cons_iff.mp h).2).2
    exact .cons (.inr rfl) (ih hrest)
  | case3 rest hrest ih =>
    obtain ⟨others, hothers⟩ := List.head?_eq_some_iff.mp ((returnsPaired_cons_iff.mp h).1 rfl)
    exact absurd hothers (hrest others)
  | case4 c rest _ _ ih =>
    have hlines := ih (returnsPaired_cons_iff.mp h).2
    rw [lines, lines, splitAt, splitAt]
    by_cases hc : c = '\n'
    · rw [if_pos hc, if_pos hc]
      exact .cons (.inl rfl) hlines
    · rw [if_neg hc, if_neg hc]
      rw [lines, lines] at hlines
      generalize splitAt '\n' (unifyNewlines rest) = unified at hlines ⊢
      generalize splitAt '\n' rest = original at hlines ⊢
      cases hlines with
      | nil => exact .cons (.inl rfl) .nil
      | cons hfirst hothers =>
        refine .cons (hfirst.imp ?_ ?_) hothers
        · rintro rfl
          rfl
        · rintro rfl
          rfl

end Text

theorem relaid_of_returnsPaired {text : String} (h : ReturnsPaired text.toList) :
    Relaid (String.ofList (unifyNewlines text.toList)) text := by
  have hnothing : IsPadding [] := nofun
  have hreturn : IsPadding ['\r'] := by
    simp only [IsPadding, List.forall_mem_singleton]
    decide
  refine ⟨lines text.toList, ?_, (intercalate_splitAt '\n' text.toList).symm⟩
  rw [String.toList_ofList]
  refine (forall₂_lines_unifyNewlines h).imp fun line other hother => ?_
  obtain rfl | rfl := hother
  · have hsame : Line.Relaid other ([] ++ other ++ []) := .padded [] [] hnothing hnothing
    rwa [List.nil_append, List.append_nil] at hsame
  · exact .padded [] ['\r'] hnothing hreturn

end LineAssembly
