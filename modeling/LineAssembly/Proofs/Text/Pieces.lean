import LineAssembly.Text.Blank
import LineAssembly.Text.Split
import Mathlib.Data.List.DropRight

/-! # Texts put together and cut again

Pieces that do not hold the separator are found again when their joined text is cut. A line keeps all of
its text when no comment mark is in it, and keeps its ends when they are not blank.
-/

set_option autoImplicit false

namespace LineAssembly.Text

theorem splitAt_eq_splitOn (separator : Char) (text : List Char) :
    splitAt separator text = text.splitOn separator := by
  induction text with
  | nil => rfl
  | cons c rest ih =>
    rw [splitAt, List.splitOn_cons_eq_if_modifyHead, ih]
    by_cases h : c = separator
    · simp [h]
    · cases hs : rest.splitOn separator with
      | nil => exact absurd hs (List.splitOn_ne_nil separator rest)
      | cons piece pieces => simp [h]

theorem splitAt_of_not_mem {separator : Char} {text : List Char} (h : separator ∉ text) :
    splitAt separator text = [text] := by
  rw [splitAt_eq_splitOn, List.splitOn_eq_singleton h]

theorem splitAt_append_separator (separator : Char) (before after : List Char) :
    splitAt separator (before ++ separator :: after) =
      splitAt separator before ++ splitAt separator after := by
  simp only [splitAt_eq_splitOn, List.splitOn_append_cons_self]

theorem splitAt_intercalate {separator : Char} {pieces : List (List Char)} (hne : pieces ≠ [])
    (h : ∀ piece ∈ pieces, separator ∉ piece) :
    splitAt separator ([separator].intercalate pieces) = pieces := by
  rw [splitAt_eq_splitOn, List.splitOn_intercalate separator h hne]

theorem intercalate_splitAt (separator : Char) (text : List Char) :
    [separator].intercalate (splitAt separator text) = text := by
  rw [splitAt_eq_splitOn, List.intercalate_splitOn]

theorem words_intercalate {ws : List (List Char)} (hne : ws ≠ []) (h : ∀ w ∈ ws, ' ' ∉ w) :
    words ([' '].intercalate ws) = ws :=
  splitAt_intercalate hne h

/-- Lines that are each ended by a line feed leave an empty line behind the last of them. -/
theorem lines_flatMap {ls : List (List Char)} (h : ∀ l ∈ ls, '\n' ∉ l) :
    lines (ls.flatMap (· ++ ['\n'])) = ls ++ [[]] := by
  induction ls with
  | nil => rfl
  | cons l rest ih =>
    have hl : '\n' ∉ l := h l List.mem_cons_self
    have hrest := ih (fun x hx => h x (List.mem_cons_of_mem _ hx))
    rw [List.flatMap_cons, List.append_assoc, List.singleton_append, lines, splitAt_append_separator,
      splitAt_of_not_mem hl]
    rw [lines] at hrest
    rw [hrest, List.singleton_append, List.cons_append]

/-- The comment mark occurs in a text. -/
def HasMark (text : List Char) : Prop :=
  [';', ';'] <:+: text

instance (text : List Char) : Decidable (HasMark text) :=
  inferInstanceAs (Decidable ([';', ';'] <:+: text))

theorem hasMark_cons_iff {c : Char} {rest : List Char} :
    HasMark (c :: rest) ↔ (c = ';' ∧ rest.head? = some ';') ∨ HasMark rest := by
  rw [HasMark, List.infix_cons_iff]
  apply or_congr_left
  rw [List.cons_prefix_cons, eq_comm, List.singleton_prefix_iff_head?_eq_some]

/-- A text without the mark, and more text without a semicolon behind it, are no comment. -/
theorem beforeComment_append_of_not_hasMark {text tail : List Char} (h : ¬ HasMark text)
    (htail : ';' ∉ tail) : beforeComment (text ++ tail) = text ++ tail := by
  induction text with
  | nil =>
    induction tail with
    | nil => rfl
    | cons c rest ih =>
      have hc : c ≠ ';' := fun he => htail (by simp [he])
      have hrest := ih (fun hm => htail (List.mem_cons_of_mem _ hm))
      rw [List.nil_append] at hrest ⊢
      rw [beforeComment, if_neg (fun hm => hc hm.1), hrest]
  | cons c rest ih =>
    rw [hasMark_cons_iff, not_or] at h
    have hmark : ¬ (c = ';' ∧ (rest ++ tail).head? = some ';') := by
      rintro ⟨hc, hhead⟩
      cases rest with
      | nil => exact htail (List.mem_of_mem_head? (by simpa using hhead))
      | cons d others => exact h.1 ⟨hc, by simpa using hhead⟩
    rw [List.cons_append, beforeComment, if_neg hmark, ih h.2]

theorem beforeComment_of_not_hasMark {text : List Char} (h : ¬ HasMark text) :
    beforeComment text = text := by
  have happend := @beforeComment_append_of_not_hasMark text [] h List.not_mem_nil
  rwa [List.append_nil] at happend

theorem beforeComment_append_of_hasMark {text : List Char} (h : HasMark text) (tail : List Char) :
    beforeComment (text ++ tail) = beforeComment text := by
  induction text with
  | nil => simp [HasMark] at h
  | cons c rest ih =>
    rw [List.cons_append, beforeComment, beforeComment]
    by_cases hmark : c = ';' ∧ rest.head? = some ';'
    · have happ : (rest ++ tail).head? = some ';' := by simp [hmark.2]
      rw [if_pos ⟨hmark.1, happ⟩, if_pos hmark]
    · have hrest : HasMark rest := (hasMark_cons_iff.mp h).resolve_left hmark
      have hne : rest ≠ [] := by
        rintro rfl
        simp [HasMark] at hrest
      have happ : (rest ++ tail).head? = rest.head? := List.head?_append_of_ne_nil _ hne
      rw [happ, if_neg hmark, if_neg hmark, ih hrest]

theorem beforeComment_isPrefix (text : List Char) : beforeComment text <+: text := by
  induction text with
  | nil => exact List.prefix_refl []
  | cons c rest ih =>
    rw [beforeComment]
    split
    · exact List.nil_prefix
    · exact (List.cons_prefix_cons).mpr ⟨rfl, ih⟩

/-- A comment takes its mark away with it. -/
theorem not_hasMark_beforeComment (text : List Char) : ¬ HasMark (beforeComment text) := by
  induction text with
  | nil => simp [HasMark, beforeComment]
  | cons c rest ih =>
    rw [beforeComment]
    split
    · simp [HasMark]
    · rename_i hmark
      rw [hasMark_cons_iff, not_or]
      constructor
      · rintro ⟨hc, hhead⟩
        apply hmark
        obtain ⟨others, hothers⟩ := beforeComment_isPrefix rest
        rw [← hothers, List.head?_append, hhead]
        exact ⟨hc, rfl⟩
      · exact ih

theorem trim_eq_self {text : List Char} (hfirst : ∀ c ∈ text.head?, isBlank c = false)
    (hlast : ∀ c ∈ text.getLast?, isBlank c = false) : trim text = text := by
  have hdrop : text.dropWhile isBlank = text := by
    cases text with
    | nil => rfl
    | cons c rest =>
      have hc : isBlank c = false := hfirst c rfl
      exact List.dropWhile_cons_of_neg (by simp [hc])
  change (text.dropWhile isBlank).rdropWhile isBlank = text
  rw [hdrop, List.rdropWhile_eq_self_iff]
  intro hne
  simp [hlast _ (List.getLast?_eq_some_getLast hne)]

theorem intercalate_cons (w : List Char) (ws : List (List Char)) :
    [' '].intercalate (w :: ws) = w ++ ws.flatMap (' ' :: ·) := by
  induction ws generalizing w with
  | nil => simp
  | cons v rest ih => rw [List.intercalate_cons_cons, ih]; simp

theorem getLast?_intercalate {ws : List (List Char)} (hne : ws ≠ []) (h : ∀ w ∈ ws, w ≠ []) :
    ∃ w ∈ ws, ([' '].intercalate ws).getLast? = w.getLast? := by
  induction ws with
  | nil => exact absurd rfl hne
  | cons w rest ih =>
    cases rest with
    | nil => exact ⟨w, by simp, by simp⟩
    | cons v others =>
      obtain ⟨last, hmem, hlast⟩ := ih (by simp) (fun x hx => h x (List.mem_cons_of_mem _ hx))
      refine ⟨last, List.mem_cons_of_mem _ hmem, ?_⟩
      obtain ⟨c, hc⟩ := Option.ne_none_iff_exists'.mp
        (show last.getLast? ≠ none by simpa using h last (List.mem_cons_of_mem _ hmem))
      rw [List.intercalate_cons_cons, List.getLast?_append, hlast, hc]
      rfl

theorem trim_intercalate {ws : List (List Char)} (hne : ws ≠ [])
    (h : ∀ w ∈ ws, w ≠ [] ∧ ∀ c ∈ w, isBlank c = false) :
    trim ([' '].intercalate ws) = [' '].intercalate ws := by
  apply trim_eq_self
  · intro c hc
    cases ws with
    | nil => exact absurd rfl hne
    | cons w rest =>
      obtain ⟨hw, hblank⟩ := h w List.mem_cons_self
      rw [intercalate_cons, List.head?_append_of_ne_nil _ hw] at hc
      exact hblank c (List.mem_of_mem_head? hc)
  · intro c hc
    obtain ⟨w, hmem, hlast⟩ := getLast?_intercalate hne (fun w hw => (h w hw).1)
    rw [hlast] at hc
    exact (h w hmem).2 c (List.mem_of_mem_getLast? hc)

theorem withoutBlanks_eq_self {text : List Char} (h : ∀ c ∈ text, isBlank c = false) :
    withoutBlanks text = text := by
  rw [withoutBlanks, List.filter_eq_self]
  intro c hc
  simp [h c hc]

end LineAssembly.Text
