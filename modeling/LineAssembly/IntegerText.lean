import LineAssembly.Numeral

/-! # Integers as text

External data may give an integer as text: ASCII digits, with a sign before them and blanks around them.
Zeros in front are dropped, and underscores among them; a minus sign may also follow such zeros.
Between the other digits underscores stand singly. A point with zeros behind it may end the text. What
is left is a plain numeral, which has no needless zero and at most `Numeral.digitLimit` characters.
-/

set_option autoImplicit false

namespace LineAssembly.IntegerText

inductive Fault where
  | malformed
  | tooLong
deriving DecidableEq, Repr

def trimmed (text : List Char) : List Char :=
  ((text.dropWhile Numeral.isSpace).reverse.dropWhile Numeral.isSpace).reverse

/-- The text without a plus sign before it. A second sign is refused. -/
def withoutPlus : List Char → Option (List Char)
  | '+' :: '-' :: _ => none
  | '+' :: rest => some rest
  | text => some text

/-- A plain numeral other than zero opens with a minus sign or with a digit other than zero. -/
def opensNumeral (c : Char) : Bool :=
  c == '-' || (c.isDigit && c != '0')

/-- The text without the zeros in front, and without the underscores among them. Where nothing or a
point follows, the last of these characters stays. -/
def withoutZeros : List Char → Option (List Char)
  | [] => none
  | c :: rest =>
    if c = '0' then
      let parts := rest.span (fun d => d == '0' || d == '_')
      match parts.2 with
      | [] => some [parts.1.getLastD c]
      | d :: tail =>
        if d = '.' then some (parts.1.getLastD c :: d :: tail)
        else if opensNumeral d then some (d :: tail)
        else none
    else if opensNumeral c then some (c :: rest)
    else none

/-- The zeros in front are dropped behind a minus sign too. -/
def withoutSignedZeros : List Char → Option (List Char)
  | '-' :: rest => (withoutZeros rest).map ('-' :: ·)
  | text => withoutZeros text

/-- The text without a point and the zeros behind it. At least one zero is needed. -/
def withoutFraction (text : List Char) : List Char :=
  match text.span (· != '.') with
  | (whole, _ :: zeros) => if !zeros.isEmpty && zeros.all (· == '0') then whole else text
  | (_, []) => text

/-- The text without its underscores, if they stand singly and none is at an end. -/
def withoutUnderscores (text : List Char) : List Char :=
  if Numeral.isDigitRun text then text.filter (· != '_') else text

/-- A plain numeral: digits without a needless zero, and perhaps a minus sign before them. The length
is noticed before whatever follows the digits. -/
def readPlain (text : List Char) : Except Fault Int :=
  let signed := Numeral.splitSign text
  let parts := signed.2.span Char.isDigit
  if parts.1.isEmpty || (parts.1.head? = some '0' && parts.1.length ≠ 1) then .error .malformed
  else if Numeral.digitLimit < text.length - parts.2.length then .error .tooLong
  else if !parts.2.isEmpty then .error .malformed
  else
    let n := Numeral.positional parts.1
    .ok (if signed.1 then -(n : Int) else n)

def read (text : String) : Except Fault Int :=
  match (withoutPlus (trimmed text.toList)).bind withoutSignedZeros with
  | none => .error .malformed
  | some rest => readPlain (withoutUnderscores (withoutFraction rest))

end LineAssembly.IntegerText
