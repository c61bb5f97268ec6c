import LineAssembly.Text.Ranges

/-! # Blanks

Blank characters, and the two ways a line loses them: at its ends, and everywhere in a word.
-/

set_option autoImplicit false

namespace LineAssembly.Text

def blankRanges : Ranges :=
  [(0x9, 0xD), (0x1C, 0x20), (0x85, 0x85), (0xA0, 0xA0), (0x1680, 0x1680), (0x2000, 0x200A),
   (0x2028, 0x2029), (0x202F, 0x202F), (0x205F, 0x205F), (0x3000, 0x3000)]

def isBlank (c : Char) : Bool :=
  blankRanges.has c.toNat

def trim (text : List Char) : List Char :=
  ((text.dropWhile isBlank).reverse.dropWhile isBlank).reverse

def withoutBlanks (text : List Char) : List Char :=
  text.filter (fun c => !isBlank c)

theorem mem_withoutBlanks {c : Char} {text : List Char} :
    c ∈ withoutBlanks text ↔ c ∈ text ∧ isBlank c = false := by
  simp [withoutBlanks]

end LineAssembly.Text
