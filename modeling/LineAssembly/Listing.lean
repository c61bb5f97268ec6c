import LineAssembly.Fault
import LineAssembly.Table

/-! # Listings

A token stream is written as source text, one statement a line, with each label on a line of its own
before the token it names. Tokens outside any statement cannot be written as source and become comment
lines. A label that points inside a statement cannot be placed, and the listing is refused.
-/

set_option autoImplicit false

namespace LineAssembly.Listing

/-- Labels to place, with token indices that may lie anywhere. -/
abbrev Labels := List (String × Int)

def sortNames (names : List String) : List String :=
  names.mergeSort (fun a b => decide (a ≤ b))

/-- The labels at an index, in code point order. -/
def labelsAt (labels : Labels) (index : Int) : List String :=
  sortNames ((labels.filter (fun l => l.2 == index)).map Prod.fst)

def labelLine (name : String) : String :=
  name ++ ":"

def labelLines (labels : Labels) (index : Int) : List String :=
  (labelsAt labels index).map labelLine

def operandText : Token → String
  | .register name => (Value.register name).text
  | .value v => v.text
  | .instruction name => name
  | .statementEnd => ""

def statementLine (words : List String) : String :=
  String.intercalate " " words

def strayEndLine : String := ";; stray statement end"

def strayOperandLine (t : Token) : String :=
  ";; stray operand " ++ operandText t

/-- The lines of the tokens from an index on, while the words of a statement may be open. -/
def tokenLines (labels : Labels) : Nat → Option (List String) → List Token → Except Fault (List String)
  | _, none, [] => .ok []
  | _, some words, [] => .ok [statementLine words]
  | index, none, t :: rest =>
    let placed := labelLines labels index
    match t with
    | .instruction name =>
      (tokenLines labels (index + 1) (some [name]) rest).map (placed ++ ·)
    | .statementEnd =>
      (tokenLines labels (index + 1) none rest).map (placed ++ strayEndLine :: ·)
    | t =>
      (tokenLines labels (index + 1) none rest).map (placed ++ strayOperandLine t :: ·)
  | index, some words, t :: rest =>
    let inside := labelsAt labels index
    if inside ≠ [] then .error (.labelInsideStatement inside index)
    else match t with
      | .instruction name =>
        (tokenLines labels (index + 1) (some [name]) rest).map (statementLine words :: ·)
      | .statementEnd =>
        (tokenLines labels (index + 1) none rest).map (statementLine words :: ·)
      | t => tokenLines labels (index + 1) (some (words ++ [operandText t])) rest

/-- The order of labels that no token carries: by index, then by name. -/
def before (a b : String × Int) : Bool :=
  decide (a.2 < b.2) || (a.2 == b.2 && decide (a.1 ≤ b.1))

def leftoverLines (labels : Labels) (size : Nat) : List String :=
  ((labels.filter (fun l => decide (l.2 < 0) || decide ((size : Int) ≤ l.2))).mergeSort before).map
    (fun l => labelLine l.1)

def lines (tokens : List Token) (labels : Labels) : Except Fault (List String) :=
  (tokenLines labels 0 none tokens).map (· ++ leftoverLines labels tokens.length)

def join (lines : List String) : String :=
  String.join (lines.map (· ++ "\n"))

def text (tokens : List Token) (labels : Labels) : Except Fault String :=
  (lines tokens labels).map join

def ofTable (labels : Table Nat) : Labels :=
  labels.map (fun l => (l.1, (l.2 : Int)))

end LineAssembly.Listing
