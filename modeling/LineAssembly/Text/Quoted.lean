import LineAssembly.Text.Printable

/-! # Quoted text

A text is shown between single quotes, or between double quotes when it holds a single quote and no
double quote. The quote in use, the backslash and every unprintable character are escaped, so what is
shown determines the text.
-/

set_option autoImplicit false

namespace LineAssembly.Text

/-- The last `width` hexadecimal digits of a number, in lower case. -/
def hexadecimal : Nat → Nat → List Char
  | 0, _ => []
  | width + 1, n => hexadecimal width (n / 16) ++ [Nat.digitChar (n % 16)]

def quoteFor (text : List Char) : Char :=
  if text.contains '\x27' && !text.contains '\x22' then '\x22' else '\x27'

def escape (quote c : Char) : List Char :=
  if c = quote ∨ c = '\\' then ['\\', c]
  else if c = '\n' then ['\\', 'n']
  else if c = '\r' then ['\\', 'r']
  else if c = '\t' then ['\\', 't']
  else if isPrintable c then [c]
  else if c.toNat < 0x100 then '\\' :: 'x' :: hexadecimal 2 c.toNat
  else if c.toNat < 0x10000 then '\\' :: 'u' :: hexadecimal 4 c.toNat
  else '\\' :: 'U' :: hexadecimal 8 c.toNat

def quoted (text : List Char) : List Char :=
  let quote := quoteFor text
  quote :: text.flatMap (escape quote) ++ [quote]

def quote (text : String) : String :=
  String.ofList (quoted text.toList)

end LineAssembly.Text
