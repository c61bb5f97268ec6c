import LineAssembly.Source.Line

/-! # Readings

Reading a source yields tokens, bindings of labels to token indices, and notes: the errors and debug
records in the order they arise. A fault ends the reading and keeps what was found before it.
-/

set_option autoImplicit false

namespace LineAssembly

inductive Note where
  | error (d : Diagnostic)
  | trace (t : Trace)
deriving DecidableEq, Repr

structure Reading where
  tokens : List Token := []
  bindings : List (String × Nat) := []
  notes : List Note := []
  fault? : Option Fault := none
deriving DecidableEq, Repr

namespace Reading

/-- One reading and then another, which is not begun after a fault. -/
def andThen (first : Reading) (second : Reading) : Reading :=
  match first.fault? with
  | some _ => first
  | none =>
    { tokens := first.tokens ++ second.tokens
      bindings := first.bindings ++ second.bindings
      notes := first.notes ++ second.notes
      fault? := second.fault? }

def ofArgument (line : Nat) (a : Argument) : Reading :=
  match a.fault? line with
  | some fault => { fault? := some fault }
  | none =>
    { tokens := [a.token]
      notes := (a.error?.map fun e => Note.error (.line line e)).toList ++
        ((a.trace? line).map Note.trace).toList }

def ofArguments (line : Nat) : List Argument → Reading
  | [] => { tokens := [.statementEnd] }
  | a :: rest => (ofArgument line a).andThen (ofArguments line rest)

def ofMnemonic (known : String → Bool) (line : Nat) (name : String) : Reading :=
  { tokens := [.instruction name]
    notes := if known name then [] else [.error (.line line (.unknownInstruction name))] }

/-- A label declaration at a token index. A label that shares its line is reported and still bound. -/
def ofLabel (line index : Nat) (name : String) (shared : Bool) : Reading :=
  if name = "" then { notes := [.error (.line line .labelUnnamed)] }
  else if !Text.isName name.toList then { notes := [.error (.line line (.labelName name))] }
  else
    { bindings := [(name, index)]
      notes := (if shared then [.error (.line line (.labelSharesLine name))] else []) ++
        [.trace (.labelBound name index)] }

/-- One line with its number, where `index` tokens come before it. -/
def ofLine (known : String → Bool) (line index : Nat) : Line → Reading
  | .blank => {}
  | .label name shared => ofLabel line index name shared
  | .statement mnemonic arguments =>
    (ofMnemonic known line mnemonic).andThen (ofArguments line arguments)

/-- Lines from a number on, where `index` tokens come before the first of them. -/
def ofLines (known : String → Bool) (line index : Nat) : List (List Char) → Reading
  | [] => {}
  | text :: rest =>
    let first := ofLine known line index (Line.ofText text)
    first.andThen (ofLines known (line + 1) (index + first.tokens.length) rest)

/-- A whole source, its lines numbered from 1. `known` tells the names of instructions. -/
def ofSource (known : String → Bool) (source : String) : Reading :=
  ofLines known 1 0 (Text.lines source.toList)

end Reading

end LineAssembly
