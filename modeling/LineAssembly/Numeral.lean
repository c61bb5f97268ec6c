import LineAssembly.Text.Blank
import LineAssembly.Text.Digit
import LineAssembly.Text.Quoted

/-! # Decimal numerals

A numeral is a run of digits of any scripts, with an optional sign before it, single underscores
between its digits and blanks around it. A run of more than `digitLimit` digits is refused, leading
zeros included, and an integer of more digits has no text.
-/

set_option autoImplicit false

namespace LineAssembly.Numeral

open Text

inductive Fault where
  | malformed (word : String)
  | tooManyDigits (count : Nat)
deriving DecidableEq, Repr

def digitLimit : Nat := 4300

/-- Whether an integer keeps to the limit when it is written out. A sign is no digit. -/
def IsWritable (n : Int) : Prop :=
  (Nat.toDigits 10 n.natAbs).length ≤ digitLimit

instance (n : Int) : Decidable (IsWritable n) :=
  inferInstanceAs (Decidable (_ ≤ _))

/-- The quoted word in a message is cut to this many characters. -/
def shownLength : Nat := 200

def Fault.message : Fault → String
  | .malformed word =>
    "invalid literal for int() with base 10: " ++
      String.ofList ((quoted word.toList).take shownLength)
  | .tooManyDigits count =>
    s!"Exceeds the limit ({digitLimit} digits) for integer string conversion: value has {count} " ++
      "digits; use sys.set_int_max_str_digits() to increase the limit"

/-- Blanks around a numeral. The four information separators are not among them. -/
def isSpace (c : Char) : Bool :=
  isBlank c && !(0x1C ≤ c.toNat && c.toNat ≤ 0x1F)

def positional (digits : List Char) : Nat :=
  digits.foldl (fun n c => 10 * n + (digitValue? c).getD 0) 0

def splitSign : List Char → Bool × List Char
  | '-' :: rest => (true, rest)
  | '+' :: rest => (false, rest)
  | rest => (false, rest)

/-- Every underscore has a character other than the underscore on both sides. -/
def grouped : List Char → Bool
  | [] => false
  | [c] => c != '_'
  | c :: d :: rest => !(c == '_' && d == '_') && grouped (d :: rest)

/-- A non-empty run whose underscores stand singly between digits. -/
def isDigitRun (run : List Char) : Bool :=
  run.head? != some '_' && grouped run

/-- The integer that a word denotes. Misplaced underscores are noticed first, then the number of digits,
then whatever follows them. -/
def read (word : List Char) : Except Fault Int :=
  let signed := splitSign (word.dropWhile isSpace)
  let parts := signed.2.span (fun c => isDigit c || c == '_')
  let digits := parts.1.filter isDigit
  if !isDigitRun parts.1 then .error (.malformed (String.ofList word))
  else if digitLimit < digits.length then .error (.tooManyDigits digits.length)
  else if !parts.2.all isSpace then .error (.malformed (String.ofList word))
  else .ok (if signed.1 then -(positional digits : Int) else positional digits)

end LineAssembly.Numeral
