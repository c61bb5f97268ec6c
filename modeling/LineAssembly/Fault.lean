import LineAssembly.Literal

/-! # Faults

A fault ends the operation that met it. Errors of a program are no faults: a machine records those as
diagnostics and goes on.
-/

set_option autoImplicit false

namespace LineAssembly

inductive Fault where
  | frozen
  | registerName (name : String)
  | registerUnnamed
  | registerExists (name : String)
  | instructionUnnamed
  | instructionWithoutBody (name : String)
  | negativeLeast (name : String)
  | mostBelowLeast (name : String) (most least : Int)
  | instructionExists (name : String)
  | instructionUnknown (name : String)
  | argumentMissing
  | nestedTooDeep
  | quotedArgument (line : Nat) (word : String)
  | literal (fault : Literal.Fault)
  | refused (refusal : Datum.Refusal)
  | labelInsideStatement (names : List String) (index : Nat)
  | integerUnwritable
deriving DecidableEq, Repr

namespace Fault

def message : Fault → String
  | .frozen => "Machine configuration is frozen once a program has been scanned or run"
  | .registerName name => s!"Register name must be alphanumeric, got {Text.quote name}"
  | .registerUnnamed => "Register name must be alphanumeric, got []"
  | .registerExists name => s!"Register '{name}' is already defined"
  | .instructionUnnamed => "Instruction name must be non-empty"
  | .instructionWithoutBody name => s!"Instruction '{name}' callback is not callable"
  | .negativeLeast name => s!"Instruction '{name}' min_args must be >= 0"
  | .mostBelowLeast name most least =>
    s!"Instruction '{name}' max_args ({most}) must be >= min_args ({least})"
  | .instructionExists name => s!"Instruction '{name}' is already defined"
  | .instructionUnknown name => Text.quote name
  | .argumentMissing => "list index out of range"
  | .nestedTooDeep => "maximum recursion depth exceeded"
  | .quotedArgument line word =>
    s!"line {line}: string literal arguments are not supported: {word}"
  | .literal (.numeral fault) => fault.message
  | .literal (.refused refusal) | .refused refusal => refusal.reason.code
  | .labelInsideStatement names index =>
    let joined := String.intercalate ", " names
    s!"Label(s) {joined} point inside a statement (token {index})"
  | .integerUnwritable =>
    s!"Exceeds the limit ({Numeral.digitLimit} digits) for integer string conversion; " ++
      "use sys.set_int_max_str_digits() to increase the limit"

end Fault

end LineAssembly
