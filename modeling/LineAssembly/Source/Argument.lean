import LineAssembly.Event
import LineAssembly.Fault
import LineAssembly.Text.Alphanumeric
import LineAssembly.Text.Blank
import LineAssembly.Text.Digit

/-! # Arguments of a statement

What a word stands for is decided after its blanks are gone, by the first rule that fits: a word of
digits is a literal, an alphanumeric word a label, a word in brackets a register, a word in double
quotes is not supported, and anything else ends the statement early.
-/

set_option autoImplicit false

namespace LineAssembly

inductive Argument where
  | absent
  | literal (n : Int32)
  | outOfRange (word : String)
  | unreadable (fault : Literal.Fault)
  | label (name : String)
  | register (name : String)
  | quoted (word : String)
  | malformed (word : String)
deriving DecidableEq, Repr

namespace Argument

def ofDigits (word : List Char) : Argument :=
  match Literal.parse word with
  | .ok (some n) => .literal n
  | .ok none => .outOfRange (String.ofList word)
  | .error fault => .unreadable fault

def enclosed (first last : Char) (word : List Char) : Bool :=
  word.head? == some first && word.getLast? == some last

/-- The first rule that fits a word without blanks. -/
def ofCompact (word : List Char) : Argument :=
  if word.isEmpty then .absent
  else if word.all Text.isDigit then ofDigits word
  else if word.all Text.isAlphanumeric then .label (String.ofList word)
  else if enclosed '[' ']' word then .register (String.ofList (word.filter Text.isAlphanumeric))
  else if enclosed '\x22' '\x22' word then .quoted (String.ofList word)
  else .malformed (String.ofList word)

def ofWord (word : List Char) : Argument :=
  ofCompact (Text.withoutBlanks word)

/-- The one token an argument becomes; what is no operand ends the statement. -/
def token : Argument → Token
  | .literal n => .value (.int n)
  | .label name => .value (.label name)
  | .register name => .register name
  | _ => .statementEnd

def error? : Argument → Option LineError
  | .absent => some .emptyArgument
  | .outOfRange word => some (.literalOutOfRange word)
  | _ => none

/-- The fault by which an argument of the given line ends the reading. -/
def fault? (line : Nat) : Argument → Option Fault
  | .quoted word => some (.quotedArgument line word)
  | .unreadable fault => some (.literal fault)
  | _ => none

def trace? (line : Nat) : Argument → Option Trace
  | .malformed word => some (.malformedArgument line word)
  | _ => none

end Argument

end LineAssembly
