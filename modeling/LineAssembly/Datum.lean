import LineAssembly.IntegerText
import LineAssembly.Token

/-! # Values and tokens as external data

External data is null, a truth value, a number, a text, a list or an object. A value or token is an
object whose `kind` says which one it is; fields that the kind does not ask for are ignored. Integers
may also come as truth values, as decimals without a fraction, or as text.
-/

set_option autoImplicit false

namespace LineAssembly

/-- External data. A decimal is `mantissa / 10 ^ places`. -/
inductive Datum where
  | null
  | bool (b : Bool)
  | int (n : Int)
  | decimal (mantissa : Int) (places : Nat)
  | text (s : String)
  | list (items : List Datum)
  | object (fields : List (String × Datum))
deriving Inhabited

namespace Datum

inductive Reason where
  | notObject
  | kindMissing
  | kindUnknown
  | fieldMissing
  | notText
  | notInteger
  | fraction
  | notNumeral
  | numeralTooLong
  | tooLarge
  | tooSmall
deriving DecidableEq, Repr

def Reason.code : Reason → String
  | .notObject => "model_attributes_type"
  | .kindMissing => "union_tag_not_found"
  | .kindUnknown => "union_tag_invalid"
  | .fieldMissing => "missing"
  | .notText => "string_type"
  | .notInteger => "int_type"
  | .fraction => "int_from_float"
  | .notNumeral => "int_parsing"
  | .numeralTooLong => "int_parsing_size"
  | .tooLarge => "less_than_equal"
  | .tooSmall => "greater_than_equal"

/-- A refusal: the path to the offending part, and the reason. -/
structure Refusal where
  path : List String
  reason : Reason
deriving DecidableEq, Repr

def Refusal.under (steps : List String) (r : Refusal) : Refusal :=
  { r with path := steps ++ r.path }

def field? (name : String) : List (String × Datum) → Option Datum
  | [] => none
  | (key, d) :: rest => if key = name then some d else field? name rest

def integer : Datum → Except Reason Int
  | .int n => .ok n
  | .bool b => .ok (if b then 1 else 0)
  | .decimal mantissa places =>
    let scale := Int.pow 10 places
    if mantissa % scale = 0 then .ok (mantissa / scale) else .error .fraction
  | .text s =>
    match IntegerText.read s with
    | .ok n => .ok n
    | .error .malformed => .error .notNumeral
    | .error .tooLong => .error .numeralTooLong
  | .null | .list _ | .object _ => .error .notInteger

def int32 (d : Datum) : Except Reason Int32 :=
  match d.integer with
  | .error reason => .error reason
  | .ok n =>
    if Value.greatestInt < n then .error .tooLarge
    else if n < Value.leastInt then .error .tooSmall
    else .ok (Int32.ofInt n)

def asText : Datum → Except Reason String
  | .text s => .ok s
  | _ => .error .notText

/-- A field of an object of some kind, read by `read`; the path of a refusal is the kind and the field. -/
def readField {α : Type} (kind name : String) (read : Datum → Except Reason α)
    (fields : List (String × Datum)) : Except Refusal α :=
  match field? name fields with
  | none => .error ⟨[kind, name], .fieldMissing⟩
  | some d =>
    match read d with
    | .error reason => .error ⟨[kind, name], reason⟩
    | .ok a => .ok a

def kindAndFields : Datum → Except Refusal (Option String × List (String × Datum))
  | .object fields =>
    match field? "kind" fields with
    | none => .error ⟨[], .kindMissing⟩
    | some (.text kind) => .ok (some kind, fields)
    | some _ => .ok (none, fields)
  | _ => .error ⟨[], .notObject⟩

end Datum

open Datum

namespace Value

def toDatum : Value → Datum
  | .int n => .object [("kind", .text "int"), ("value", .int n.toInt)]
  | .label name => .object [("kind", .text "label"), ("name", .text name)]
  | .register name => .object [("kind", .text "register"), ("name", .text name)]
  | .empty => .object [("kind", .text "empty")]

def ofDatum (d : Datum) : Except Refusal Value :=
  match kindAndFields d with
  | .error refusal => .error refusal
  | .ok (some "int", fields) => (readField "int" "value" int32 fields).map Value.int
  | .ok (some "label", fields) => (readField "label" "name" asText fields).map Value.label
  | .ok (some "register", fields) => (readField "register" "name" asText fields).map Value.register
  | .ok (some "empty", _) => .ok .empty
  | .ok _ => .error ⟨[], .kindUnknown⟩

end Value

namespace Token

def toDatum : Token → Datum
  | .instruction name => .object [("kind", .text "instruction"), ("name", .text name)]
  | .value v => .object [("kind", .text "value"), ("value", v.toDatum)]
  | .register name => .object [("kind", .text "register"), ("name", .text name)]
  | .statementEnd => .object [("kind", .text "end")]

/-- The value inside a value token; a refusal is located under the token's own field. -/
def valueField (fields : List (String × Datum)) : Except Refusal Value :=
  match field? "value" fields with
  | none => .error ⟨["value", "value"], .fieldMissing⟩
  | some d =>
    match Value.ofDatum d with
    | .error refusal => .error (refusal.under ["value", "value"])
    | .ok v => .ok v

def ofDatum (d : Datum) : Except Refusal Token :=
  match kindAndFields d with
  | .error refusal => .error refusal
  | .ok (some "value", fields) => (valueField fields).map Token.value
  | .ok (some "instruction", fields) =>
    (readField "instruction" "name" asText fields).map Token.instruction
  | .ok (some "register", fields) => (readField "register" "name" asText fields).map Token.register
  | .ok (some "end", _) => .ok .statementEnd
  | .ok _ => .error ⟨[], .kindUnknown⟩

/-- A list of tokens, the first of which has the given index. Every element that is refused is
reported, and its refusal is located under its index. -/
def listFrom (index : Nat) : List Datum → Except (List Refusal) (List Token)
  | [] => .ok []
  | d :: rest =>
    match ofDatum d, listFrom (index + 1) rest with
    | .ok token, .ok tokens => .ok (token :: tokens)
    | .ok _, .error refusals => .error refusals
    | .error refusal, .ok _ => .error [refusal.under [toString index]]
    | .error refusal, .error refusals => .error (refusal.under [toString index] :: refusals)

def listOfData (items : List Datum) : Except (List Refusal) (List Token) :=
  listFrom 0 items

end Token

end LineAssembly
