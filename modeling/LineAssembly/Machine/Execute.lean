import LineAssembly.Machine.Operation
import LineAssembly.Listing
import LineAssembly.Machine.Configuration
import LineAssembly.Machine.Scan

/-! # Executing instructions

Executing an instruction checks the number of its arguments and then performs its body. A script may
execute other instructions of its machine, down to a fixed depth. A step of a script whose operand is
missing, or whose condition fails, ends the script; an operand that was refused is a fault.
-/

set_option autoImplicit false

namespace LineAssembly

inductive Reply where
  | nothing
  | done
  | flag (b : Bool)
  | flags (bs : List Bool)
  | value (v : Option Value)
  | integer (n : Option Int)
  | text (s : String)
  | lines (ls : List String)
  | tokens (ts : List Token)
deriving DecidableEq, Repr

/-- Where a step leaves its script: at its end, or at the next step. -/
inductive Flow where
  | stop
  | next (reply : Reply)
deriving DecidableEq, Repr

abbrev Call := Instruction → List Value → Machine → Machine × Except Fault Unit

namespace Machine

/-- A step that needs an operand; without it the script ends, and a refused one is a fault. -/
def withOperand (m : Machine) (arguments : List Value) (o : Operand)
    (step : Value → Machine × Except Fault Flow) : Machine × Except Fault Flow :=
  match o.resolve arguments with
  | .error refusal => (m, .error (.refused refusal))
  | .ok none => (m, .ok .stop)
  | .ok (some v) => step v

def withOperands (m : Machine) (arguments : List Value) :
    List Operand → (List Value → Machine × Except Fault Flow) → Machine × Except Fault Flow
  | [], step => step []
  | o :: rest, step =>
    m.withOperand arguments o fun v => m.withOperands arguments rest fun vs => step (v :: vs)

def withInt (m : Machine) (arguments : List Value) (o : Operand)
    (step : Machine → Int → Machine × Except Fault Flow) : Machine × Except Fault Flow :=
  m.withOperand arguments o fun v =>
    match m.readInt v with
    | (m, none) => (m, .ok .stop)
    | (m, some n) => step m n

def withInstruction (m : Machine) (name : String)
    (step : Instruction → Machine × Except Fault Flow) : Machine × Except Fault Flow :=
  match m.instructions.get? name with
  | none => (m, .error (.instructionUnknown name))
  | some i => step i

def perform (call : Call) (arguments : List Value) (m : Machine) :
    Action → Machine × Except Fault Flow
  | .insertRegister name =>
    match m.insertRegister name with
    | .error fault => (m, .error fault)
    | .ok m => (m, .ok (.next .done))
  | .insertInstruction d =>
    match Instruction.ofDeclaration d with
    | .error fault => (m, .error fault)
    | .ok i => answering (fun _ => .next .done) (m.insertInstructions [i])
  | .insertInstructions ds =>
    match Instruction.ofDeclarations ds with
    | .error fault => (m, .error fault)
    | .ok is => answering (fun _ => .next .done) (m.insertInstructions is)
  | .insertStandard =>
    answering (fun _ => .next .done) (m.insertInstructions Instruction.standard)
  | .load source => answering (fun tokens => .next (.tokens tokens)) (m.load source)
  | .listing =>
    match Listing.text m.program (Listing.ofTable m.labels) with
    | .error fault => (m, .error fault)
    | .ok text => (m, .ok (.next (.text text)))
  | .reset => (m.reset, .ok (.next .nothing))
  | .halt => (m.halt, .ok (.next .nothing))
  | .emit text => (m.emit text, .ok (.next .nothing))
  | .report message halting => (m.report (.host message) halting, .ok (.next .nothing))
  | .dump => (m.dump, .ok (.next (.lines m.stateLines)))
  | .read o =>
    m.withOperand arguments o fun v =>
      match m.read v with
      | (m, found) => (m, .ok (.next (.value found)))
  | .readInt o =>
    m.withOperand arguments o fun v =>
      match m.readInt v with
      | (m, n) => (m, .ok (.next (.integer n)))
  | .write target (.operand o) =>
    m.withOperand arguments target fun target =>
      m.withOperand arguments o fun v =>
        match m.write target v with
        | (m, stored) => (m, .ok (.next (.flag stored)))
  | .write target (.integer n) =>
    m.withOperand arguments target fun target =>
      answering (fun stored => .next (.flag stored)) (m.writeInt target n)
  | .jump index => answering (fun _ => .next .nothing) (m.jump index)
  | .jumpToValue o =>
    m.withOperand arguments o fun v => (m.jumpToValue v, .ok (.next .nothing))
  | .jumpToLabel o =>
    m.withOperand arguments o fun v => (m.jumpToLabel v, .ok (.next .nothing))
  | .assign name o =>
    m.withOperand arguments o fun v => (m.assign name v, .ok (.next .nothing))
  | .accepts name counts =>
    m.withInstruction name fun i => (m, .ok (.next (.flags (counts.map i.arity.accepts))))
  | .execute name operands =>
    m.withInstruction name fun i =>
      m.withOperands arguments operands fun values =>
        answering (fun _ => .next .nothing) (call i values m)
  | .add target left right =>
    m.withInt arguments left fun m a =>
      m.withInt arguments right fun m b =>
        m.withOperand arguments target fun target =>
          answering (fun _ => .next .nothing) (m.writeInt target (a + b))
  | .stopUnlessLess left right =>
    m.withInt arguments left fun m a =>
      m.withInt arguments right fun m b =>
        (m, .ok (if a < b then .next .nothing else .stop))

def follow (call : Call) (arguments : List Value) : Script → Machine → Machine × Except Fault Unit
  | [], m => (m, .ok ())
  | action :: rest, m =>
    match m.perform call arguments action with
    | (m, .error fault) => (m, .error fault)
    | (m, .ok .stop) => (m, .ok ())
    | (m, .ok (.next _)) => follow call arguments rest m

def callLimit : Nat := 1000

/-- An instruction executed with at most `depth` scripts inside one another. A script is logged before
it is followed. -/
def executeWithin : Nat → Call
  | depth, i, arguments, m =>
    if i.arity.accepts arguments.length then
      match i.body with
      | .standard operation => operation.perform arguments m
      | .script steps =>
        match depth with
        | 0 => (m, .error .nestedTooDeep)
        | depth + 1 =>
          follow (executeWithin depth) arguments steps (m.log (.called i.name arguments))
    else m.reportShowing i.arity.bounds (.argumentCount i.name i.arity arguments.length)

def execute (m : Machine) (i : Instruction) (arguments : List Value) : Machine × Except Fault Unit :=
  executeWithin callLimit i arguments m

end Machine

end LineAssembly
