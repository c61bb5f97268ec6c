import LineAssembly.Source.Argument
import LineAssembly.Text.Split

/-! # Lines of a source

A line loses its comment and the blanks at its ends. What is left is cut into words at single spaces: a
first word that ends in a colon declares a label, any other opens a statement.
-/

set_option autoImplicit false

namespace LineAssembly

inductive Line where
  | blank
  /-- A label declaration; `shared` when more words follow on the line. -/
  | label (name : String) (shared : Bool)
  | statement (mnemonic : String) (arguments : List Argument)
deriving DecidableEq, Repr

namespace Line

def content (text : List Char) : List Char :=
  Text.trim (Text.beforeComment text)

def ofWords : List (List Char) → Line
  | [] => .blank
  | first :: rest =>
    if first.getLast? = some ':' then
      .label (String.ofList (first.filter (· != ':'))) (!rest.isEmpty)
    else .statement (String.ofList (Text.withoutBlanks first)) (rest.map Argument.ofWord)

def ofText (text : List Char) : Line :=
  if (content text).isEmpty then .blank else ofWords (Text.words (content text))

end Line

end LineAssembly
