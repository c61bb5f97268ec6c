import LineAssembly.Instruction.Arity
import LineAssembly.Token
import LineAssembly.Text.Quoted

/-! # Diagnostics, traces and events

A diagnostic is an error of a program, kept by its cause. A trace is a debug record. An event is one
entry of a machine's journal: a line for one of the machine's two audiences, a debug record, or a call
of a host instruction.
-/

set_option autoImplicit false

namespace LineAssembly

inductive LineError where
  | labelUnnamed
  | labelName (name : String)
  | labelSharesLine (name : String)
  | unknownInstruction (name : String)
  | emptyArgument
  | literalOutOfRange (word : String)
deriving DecidableEq, Repr

def LineError.message : LineError → String
  | .labelUnnamed => "empty label name"
  | .labelName name => s!"label name '{name}' must be alphanumeric"
  | .labelSharesLine name => s!"label '{name}' cannot share a line with an instruction"
  | .unknownInstruction name => s!"{name} is an unknown instruction"
  | .emptyArgument => "empty argument"
  | .literalOutOfRange word => s!"integer literal {word} is out of range"

inductive TokenError where
  | clash (name pending : String)
  | unknownInstruction (name : String)
  | strayValue (v : Value)
  | strayRegister (name : String)
  | undeclaredRegister (name : String)
deriving DecidableEq, Repr

def TokenError.message : TokenError → String
  | .clash name pending => s!"instruction {name} encountered while {pending} is pending"
  | .unknownInstruction name => s!"{name} is not a valid instruction"
  | .strayValue v => s!"value {v.text} encountered with no instruction present"
  | .strayRegister name =>
    s!"register reference {(Value.register name).text} encountered with no instruction present"
  | .undeclaredRegister name => s!"register {(Value.register name).text} is not defined"

inductive Diagnostic where
  | line (number : Nat) (error : LineError)
  | token (cursor : Nat) (error : TokenError)
  | undefinedRegister (v : Value)
  | notInteger (v : Value)
  | notDestination (v : Value)
  | integerOutOfRange (n : Int)
  | invalidDestination (v : Value)
  | negativeDestination (index : Int)
  | invalidLabel (v : Value)
  | argumentCount (name : String) (arity : Arity) (count : Nat)
  | host (text : String)
deriving DecidableEq, Repr

def Diagnostic.message : Diagnostic → String
  | .line number error => s!"line {number}: {error.message}"
  | .token cursor error => s!"token {cursor}: {error.message}"
  | .undefinedRegister v => s!"Register {v.text} is not defined"
  | .notInteger v => s!"Expected an integer operand, got {v.described}"
  | .notDestination v => s!"Destination must be a register, got {v.described}"
  | .integerOutOfRange n => s!"Integer {n} is outside the signed 32-bit range"
  | .invalidDestination v => s!"Invalid destination: {v.text}"
  | .negativeDestination index => s!"Invalid destination: {index}"
  | .invalidLabel v => s!"Invalid label: {v.text}"
  | .argumentCount name arity count =>
    s!"{name} expects {arity.text} argument(s), got {count}"
  | .host text => text

inductive Trace where
  | labelBound (name : String) (index : Nat)
  | malformedArgument (line : Nat) (word : String)
  | halted (cursor : Nat) (diagnostic : Diagnostic)
  | jumped (start target : Nat)
  | notRun (errors : Nat)
deriving DecidableEq, Repr

namespace Trace

def message : Trace → String
  | .labelBound name index => s!"label {name} -> token {index}"
  | .malformedArgument line word =>
    s!"line {line}: malformed argument {Text.quote word} treated as statement end"
  | .halted cursor diagnostic => s!"halted at token {cursor}: {diagnostic.message}"
  | .jumped start target => s!"jump {start} -> {target}"
  | .notRun errors => s!"not running: {errors} scan error(s)"

def origin : Trace → String
  | .labelBound .. | .malformedArgument .. => "asmdef.machine._scanner"
  | .halted .. | .jumped .. | .notRun .. => "asmdef.machine._machine"

end Trace

inductive Event where
  | diagnosed (diagnostic : Diagnostic)
  | dumped (line : String)
  | emitted (text : String)
  | traced (trace : Trace)
  | called (name : String) (arguments : List Value)
  | cleared
deriving DecidableEq, Repr

namespace Event

def diagnosticLine? : Event → Option String
  | .diagnosed diagnostic => some diagnostic.message
  | .dumped line => some line
  | _ => none

def outputLine? : Event → Option String
  | .emitted text => some text
  | _ => none

def line? (e : Event) : Option String :=
  e.diagnosticLine? <|> e.outputLine?

def trace? : Event → Option Trace
  | .traced trace => some trace
  | _ => none

def call? : Event → Option (String × List Value)
  | .called name arguments => some (name, arguments)
  | _ => none

end Event

end LineAssembly
