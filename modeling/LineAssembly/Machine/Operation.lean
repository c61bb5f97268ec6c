import LineAssembly.Machine.Access

/-! # The standard operations

Arithmetic takes a destination and two operands, or a destination that is also the left operand. It is
exact arithmetic, wrapped to the signed 32-bit range before it is stored.
-/

set_option autoImplicit false

namespace LineAssembly.Operation

def arithmetic (op : Int → Int → Int) (target left right : Value) (m : Machine) :
    Machine × Except Fault Unit :=
  match m.readInt left with
  | (m, none) => (m, .ok ())
  | (m, some a) =>
    match m.readInt right with
    | (m, none) => (m, .ok ())
    | (m, some b) => Machine.answering (fun _ => ()) (m.writeInt target (Value.wrap (op a b)))

def readTexts : List Value → Machine → Machine × Option (List String)
  | [], m => (m, some [])
  | v :: rest, m =>
    match m.read v with
    | (m, none) => (m, none)
    | (m, some found) =>
      match readTexts rest m with
      | (m, none) => (m, none)
      | (m, some texts) => (m, some (found.text :: texts))

/-- The texts of all arguments go out as one line, or none of them does. -/
def emitTexts (arguments : List Value) (m : Machine) : Machine :=
  match readTexts arguments m with
  | (m, none) => m
  | (m, some texts) => m.emit (String.intercalate " " texts)

def jumpIf (condition : Int → Bool) (operand label : Value) (m : Machine) : Machine :=
  match m.readInt operand with
  | (m, none) => m
  | (m, some n) => if condition n then m.jumpToLabel label else m

/-- The effect of an operation on the machine. An argument that is missing is a fault. -/
def perform (operation : Operation) (arguments : List Value) (m : Machine) :
    Machine × Except Fault Unit :=
  match operation, arguments with
  | .nop, _ => (m, .ok ())
  | .set, target :: v :: _ => ((m.write target v).1, .ok ())
  | .add, [target, right] => arithmetic (· + ·) target target right m
  | .add, target :: left :: right :: _ => arithmetic (· + ·) target left right m
  | .sub, [target, right] => arithmetic (· - ·) target target right m
  | .sub, target :: left :: right :: _ => arithmetic (· - ·) target left right m
  | .mul, [target, right] => arithmetic (· * ·) target target right m
  | .mul, target :: left :: right :: _ => arithmetic (· * ·) target left right m
  | .jmp, label :: _ => (m.jumpToLabel label, .ok ())
  | .jv, v :: _ => (m.jumpToValue v, .ok ())
  | .jz, operand :: label :: _ => (jumpIf (· == 0) operand label m, .ok ())
  | .jnz, operand :: label :: _ => (jumpIf (· != 0) operand label m, .ok ())
  | .print, arguments => (emitTexts arguments m, .ok ())
  | .halt, _ => (m.halt, .ok ())
  | _, _ => (m, .error .argumentMissing)

end LineAssembly.Operation
