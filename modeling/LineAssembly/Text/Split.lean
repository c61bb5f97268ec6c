/-! # Lines, words and comments

A text is cut into pieces at every occurrence of one separator. Two separators in a row leave an empty
piece between them, and a text always has at least one piece.
-/

set_option autoImplicit false

namespace LineAssembly.Text

def splitAt (separator : Char) : List Char → List (List Char)
  | [] => [[]]
  | c :: rest =>
    if c = separator then [] :: splitAt separator rest
    else match splitAt separator rest with
      | [] => [[c]]
      | piece :: pieces => (c :: piece) :: pieces

theorem splitAt_ne_nil (separator : Char) (text : List Char) : splitAt separator text ≠ [] := by
  cases text with
  | nil => simp [splitAt]
  | cons c rest =>
    unfold splitAt
    split
    · simp
    · split <;> simp

theorem not_mem_of_mem_splitAt {separator : Char} {text piece : List Char}
    (h : piece ∈ splitAt separator text) : separator ∉ piece := by
  induction text generalizing piece with
  | nil =>
    have hp : piece = [] := by simpa [splitAt] using h
    simp [hp]
  | cons c rest ih =>
    unfold splitAt at h
    split at h
    · rcases List.mem_cons.mp h with rfl | h
      · simp
      · exact ih h
    · rename_i hc
      split at h
      · have hp : piece = [c] := by simpa using h
        simpa [hp] using fun he => hc he.symm
      · rename_i first others heq
        rcases List.mem_cons.mp h with rfl | h
        · have hfirst : separator ∉ first := ih (by simp [heq])
          simpa [hfirst] using fun he => hc he.symm
        · exact ih (by simp [heq, h])

def lines (text : List Char) : List (List Char) :=
  splitAt '\n' text

def words (text : List Char) : List (List Char) :=
  splitAt ' ' text

/-- The part of a line before its comment, which starts at the first two semicolons in a row. -/
def beforeComment : List Char → List Char
  | [] => []
  | c :: rest => if c = ';' ∧ rest.head? = some ';' then [] else c :: beforeComment rest

/-- Carriage returns, alone or before a line feed, become line feeds. -/
def unifyNewlines : List Char → List Char
  | [] => []
  | '\r' :: '\n' :: rest => '\n' :: unifyNewlines rest
  | '\r' :: rest => '\n' :: unifyNewlines rest
  | c :: rest => c :: unifyNewlines rest

end LineAssembly.Text
