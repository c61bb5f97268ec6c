import LineAssembly.Datum

/-! # Scripts

The body of a host's own instruction is a script: a list of actions on the machine that executes it,
performed in order. An action takes its operands from the script itself or from the arguments of the
call. Data in a script that is no value is refused only when an action takes it. No action runs a
program, so a script cannot re-enter the run that called it.
-/

set_option autoImplicit false

namespace LineAssembly

/-- An operand of an action: an argument of the call, by position, a fixed value, or data that was
refused as one. -/
inductive Operand where
  | argument (position : Nat)
  | value (v : Value)
  | refused (refusal : Datum.Refusal)
deriving DecidableEq, Repr

namespace Operand

def ofDatum (d : Datum) : Operand :=
  match Value.ofDatum d with
  | .error refusal => .refused refusal
  | .ok v => .value v

/-- The value of an operand. An argument that the call does not have is none. -/
def resolve (arguments : List Value) : Operand → Except Datum.Refusal (Option Value)
  | .argument position => .ok arguments[position]?
  | .value v => .ok (some v)
  | .refused refusal => .error refusal

end Operand

inductive Written where
  | operand (o : Operand)
  | integer (n : Int)
deriving DecidableEq, Repr

/-- An instruction as a host declares it, before it is checked. Without a body there is nothing to
call. -/
structure Declaration (β : Type) where
  name : String
  least : Int
  most : Option Int
  body : Option β

inductive Action where
  | insertRegister (name : String)
  | insertInstruction (declaration : Declaration (List Action))
  | insertInstructions (declarations : List (Declaration (List Action)))
  | insertStandard
  | load (source : String)
  | listing
  | reset
  | halt
  | emit (text : String)
  | report (message : String) (halting : Bool)
  | dump
  | read (value : Operand)
  | readInt (value : Operand)
  | write (target : Operand) (written : Written)
  | jump (index : Int)
  | jumpToValue (value : Operand)
  | jumpToLabel (value : Operand)
  | assign (register : String) (value : Operand)
  | accepts (instruction : String) (counts : List Int)
  | execute (instruction : String) (arguments : List Operand)
  | add (target left right : Operand)
  | stopUnlessLess (left right : Operand)

abbrev Script := List Action

end LineAssembly
