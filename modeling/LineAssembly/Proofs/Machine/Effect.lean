import LineAssembly.Machine.Execute
import LineAssembly.Proofs.Table

/-! # Effects of the standard instructions

A standard instruction does one thing to its machine, or nothing. Which one it is depends only on the
registers, the labels and the arguments, and a failure is one of the things: what fails does nothing
else.
-/

set_option autoImplicit false

namespace LineAssembly

inductive Effect where
  | pass
  | store (register : String) (v : Value)
  | emit (text : String)
  | goto (index : Nat)
  | stop
  | fail (d : Diagnostic)
deriving DecidableEq, Repr

namespace Value

variable (registers : Table Value)

def found (v : Value) : Except Diagnostic Value :=
  match v.resolve registers with
  | none => .error (.undefinedRegister v)
  | some found => .ok found

def integer (v : Value) : Except Diagnostic Int := do
  match ← v.found registers with
  | .int n => .ok n.toInt
  | other => .error (.notInteger other)

def target : Value → Except Diagnostic String
  | .register name =>
    if registers.has name then .ok name else .error (.undefinedRegister (.register name))
  | other => .error (.notDestination other)

end Value

namespace Effect

variable (registers : Table Value) (labels : Table Nat)

/-- What was worked out, or the failure to do so. -/
def settle : Except Diagnostic Effect → Effect
  | .ok e => e
  | .error d => .fail d

def assignment (target v : Value) : Except Diagnostic Effect := do
  let name ← target.target registers
  let found ← v.found registers
  return .store name found

def arithmetic (op : Int → Int → Int) (target left right : Value) : Except Diagnostic Effect := do
  let a ← left.integer registers
  let b ← right.integer registers
  let name ← target.target registers
  return .store name (.int (Int32.ofInt (Value.wrap (op a b))))

def toLabel (v : Value) : Except Diagnostic Effect :=
  match v.resolve registers with
  | some (.label name) =>
    match labels.get? name with
    | some index => .ok (.goto index)
    | none => .error (.invalidLabel v)
  | _ => .error (.invalidLabel v)

def toValue (v : Value) : Except Diagnostic Effect :=
  match v.resolve registers with
  | some (.int n) => if 0 ≤ n.toInt then .ok (.goto n.toInt.toNat) else .error (.invalidDestination v)
  | _ => .error (.invalidDestination v)

def conditional (condition : Int → Bool) (operand label : Value) : Except Diagnostic Effect := do
  let n ← operand.integer registers
  if condition n then toLabel registers labels label else return .pass

def texts : List Value → Except Diagnostic (List String)
  | [] => .ok []
  | v :: rest => do
    let found ← v.found registers
    let others ← texts rest
    return found.text :: others

def printing (arguments : List Value) : Except Diagnostic Effect := do
  let texts ← texts registers arguments
  return .emit (String.intercalate " " texts)

def apply : Effect → Machine → Machine
  | .pass, m => m
  | .store name v, m => m.assign name v
  | .emit text, m => m.emit text
  | .goto index, m => m.moveTo index
  | .stop, m => m.halt
  | .fail d, m => m.report d true

end Effect

/-- There is no effect where an argument is missing. -/
def Operation.effect (registers : Table Value) (labels : Table Nat) :
    Operation → List Value → Option Effect
  | .nop, _ => some .pass
  | .set, target :: v :: _ => some (.settle (Effect.assignment registers target v))
  | .add, [target, right] => some (.settle (Effect.arithmetic registers (· + ·) target target right))
  | .add, target :: left :: right :: _ =>
    some (.settle (Effect.arithmetic registers (· + ·) target left right))
  | .sub, [target, right] => some (.settle (Effect.arithmetic registers (· - ·) target target right))
  | .sub, target :: left :: right :: _ =>
    some (.settle (Effect.arithmetic registers (· - ·) target left right))
  | .mul, [target, right] => some (.settle (Effect.arithmetic registers (· * ·) target target right))
  | .mul, target :: left :: right :: _ =>
    some (.settle (Effect.arithmetic registers (· * ·) target left right))
  | .jmp, label :: _ => some (.settle (Effect.toLabel registers labels label))
  | .jv, v :: _ => some (.settle (Effect.toValue registers v))
  | .jz, operand :: label :: _ =>
    some (.settle (Effect.conditional registers labels (· == 0) operand label))
  | .jnz, operand :: label :: _ =>
    some (.settle (Effect.conditional registers labels (· != 0) operand label))
  | .print, arguments => some (.settle (Effect.printing registers arguments))
  | .halt, _ => some .stop
  | _, _ => none

/-- The effect of a standard instruction. A script is not looked into. -/
def Instruction.effect (registers : Table Value) (labels : Table Nat) (i : Instruction)
    (arguments : List Value) : Effect :=
  if i.arity.accepts arguments.length then
    match i.body with
    | .standard operation => (operation.effect registers labels arguments).getD .pass
    | .script _ => .pass
  else .fail (.argumentCount i.name i.arity arguments.length)

namespace Machine

variable (m : Machine)

theorem read_eq (v : Value) :
    m.read v = match v.found m.registers with
      | .ok found => (m, some found)
      | .error d => (m.report d true, none) := by
  rw [read, Value.found]
  cases v.resolve m.registers <;> rfl

theorem readInt_eq (v : Value) :
    m.readInt v = match v.integer m.registers with
      | .ok n => (m, some n)
      | .error d => (m.report d true, none) := by
  rw [readInt, read_eq, Value.integer]
  cases v.found m.registers with
  | error d => rfl
  | ok found => cases found <;> rfl

theorem destination_eq (v : Value) : m.destination v = v.target m.registers := by
  cases v <;> rfl

theorem write_eq (target v : Value) :
    (m.write target v).1 = (Effect.settle (Effect.assignment m.registers target v)).apply m := by
  rw [write, destination_eq, Effect.assignment]
  cases target.target m.registers with
  | error d => rfl
  | ok name =>
    simp only [read_eq]
    cases v.found m.registers <;> rfl

/-- A wrapped integer is in the range, so no message has to show it and there is no fault. -/
theorem writeInt_wrap (target : Value) (n : Int) :
    answering (fun _ => ()) (m.writeInt target (Value.wrap n)) = ((Effect.settle (do
      let name ← target.target m.registers
      return .store name (.int (Int32.ofInt (Value.wrap n))))).apply m, .ok ()) := by
  rw [writeInt, destination_eq]
  cases target.target m.registers with
  | error d => rfl
  | ok name =>
    have hrange : Value.ofInt? (Value.wrap n) = some (.int (Int32.ofInt (Value.wrap n))) :=
      if_pos (Value.wrap_inRange n)
    simp only [hrange]
    rfl

theorem jumpToLabel_eq (v : Value) :
    m.jumpToLabel v = (Effect.settle (Effect.toLabel m.registers m.labels v)).apply m := by
  rw [jumpToLabel, Effect.toLabel]
  rcases v.resolve m.registers with _ | (n | name | name | _)
  case some.label =>
    simp only
    cases m.labels.get? name <;> rfl
  all_goals rfl

theorem jumpToValue_eq (v : Value) :
    m.jumpToValue v = (Effect.settle (Effect.toValue m.registers v)).apply m := by
  rw [jumpToValue, Effect.toValue]
  rcases v.resolve m.registers with _ | (n | name | name | _)
  case some.int =>
    simp only
    split <;> rfl
  all_goals rfl

end Machine

namespace Operation

variable (m : Machine)

theorem arithmetic_eq (op : Int → Int → Int) (target left right : Value) :
    arithmetic op target left right m =
      ((Effect.settle (Effect.arithmetic m.registers op target left right)).apply m, .ok ()) := by
  rw [arithmetic, Machine.readInt_eq, Effect.arithmetic]
  cases left.integer m.registers with
  | error d => rfl
  | ok a =>
    simp only [Machine.readInt_eq]
    cases right.integer m.registers with
    | error d => rfl
    | ok b => exact m.writeInt_wrap target (op a b)

theorem readTexts_eq (arguments : List Value) :
    readTexts arguments m = match Effect.texts m.registers arguments with
      | .ok texts => (m, some texts)
      | .error d => (m.report d true, none) := by
  induction arguments with
  | nil => rfl
  | cons v rest ih =>
    rw [readTexts, Machine.read_eq, Effect.texts]
    cases v.found m.registers with
    | error d => rfl
    | ok found =>
      simp only [ih]
      cases Effect.texts m.registers rest <;> rfl

theorem emitTexts_eq (arguments : List Value) :
    emitTexts arguments m = (Effect.settle (Effect.printing m.registers arguments)).apply m := by
  rw [emitTexts, readTexts_eq, Effect.printing]
  cases Effect.texts m.registers arguments <;> rfl

theorem jumpIf_eq (condition : Int → Bool) (operand label : Value) :
    jumpIf condition operand label m =
      (Effect.settle (Effect.conditional m.registers m.labels condition operand label)).apply m := by
  rw [jumpIf, Machine.readInt_eq, Effect.conditional]
  cases operand.integer m.registers with
  | error d => rfl
  | ok n =>
    change (if condition n then m.jumpToLabel label else m) = (Effect.settle
      (if condition n then Effect.toLabel m.registers m.labels label else .ok .pass)).apply m
    split
    · exact m.jumpToLabel_eq label
    · rfl

theorem perform_eq (operation : Operation) (arguments : List Value) :
    operation.perform arguments m =
      match operation.effect m.registers m.labels arguments with
      | some e => (e.apply m, .ok ())
      | none => (m, .error .argumentMissing) := by
  fun_cases Operation.effect m.registers m.labels operation arguments
  all_goals simp_all [perform, Machine.write_eq, arithmetic_eq, Machine.jumpToLabel_eq,
    Machine.jumpToValue_eq, jumpIf_eq, emitTexts_eq, Effect.apply]

end Operation

/-- The warning about a register with no instruction before it. No other message lets the run go on. -/
def Diagnostic.isWarning : Diagnostic → Bool
  | .token _ (.strayRegister _) => true
  | _ => false

/-- The messages that operands can cause: a register among them does not exist, or an operand is not what
is asked for in its place. -/
inductive Diagnostic.OfOperands (registers : Table Value) (arguments : List Value) :
    Diagnostic → Prop where
  | undefinedRegister {v : Value} (mem : v ∈ arguments) (absent : v.resolve registers = none) :
    OfOperands registers arguments (.undefinedRegister v)
  | notInteger (v : Value) : OfOperands registers arguments (.notInteger v)
  | notDestination (v : Value) : OfOperands registers arguments (.notDestination v)
  | invalidLabel (v : Value) : OfOperands registers arguments (.invalidLabel v)
  | invalidDestination (v : Value) : OfOperands registers arguments (.invalidDestination v)

/-- An answer has the property, and an error is one that the operands cause. -/
def Meets (registers : Table Value) (arguments : List Value) {α : Type} (P : α → Prop) :
    Except Diagnostic α → Prop
  | .ok a => P a
  | .error d => d.OfOperands registers arguments

namespace Meets

variable {registers : Table Value} {arguments : List Value} {v : Value}

theorem bind {α β : Type} {P : α → Prop} {Q : β → Prop} {x : Except Diagnostic α}
    {f : α → Except Diagnostic β} (hx : Meets registers arguments P x)
    (hf : ∀ a, P a → Meets registers arguments Q (f a)) : Meets registers arguments Q (x >>= f) := by
  cases x with
  | error d => exact hx
  | ok a => exact hf a hx

theorem found (hv : v ∈ arguments) :
    Meets registers arguments (fun _ => True) (v.found registers) := by
  rw [Value.found]
  cases hresolve : v.resolve registers with
  | none => exact .undefinedRegister hv hresolve
  | some found => trivial

theorem integer (hv : v ∈ arguments) :
    Meets registers arguments (fun _ => True) (v.integer registers) := by
  apply (found hv).bind
  intro found _
  cases found
  · trivial
  all_goals exact .notInteger _

theorem target (hv : v ∈ arguments) :
    Meets registers arguments (fun _ => True) (v.target registers) := by
  cases v with
  | register name =>
    rw [Value.target]
    split
    · trivial
    · rename_i habsent
      exact .undefinedRegister hv (Option.not_isSome_iff_eq_none.mp habsent)
  | _ => exact .notDestination _

theorem texts {vs : List Value} (hvs : ∀ v ∈ vs, v ∈ arguments) :
    Meets registers arguments (fun _ => True) (Effect.texts registers vs) := by
  induction vs with
  | nil => trivial
  | cons v rest ih =>
    apply (found (hvs v List.mem_cons_self)).bind
    intro found _
    apply (ih fun u hu => hvs u (List.mem_cons_of_mem _ hu)).bind
    intro others _
    trivial

end Meets

namespace Effect

variable {registers : Table Value} {labels : Table Nat} {arguments : List Value}

/-- Only one operation stops the machine, only one jumps to where no label need be, and a failure is
the operands'. -/
def Allowed (registers : Table Value) (labels : Table Nat) (arguments : List Value)
    (operation : Operation) : Effect → Prop
  | .stop => operation = .halt
  | .goto index => operation = .jv ∨ ∃ name, labels.get? name = some index
  | .fail d => d.OfOperands registers arguments
  | _ => True

theorem allowed_settle {operation : Operation} {x : Except Diagnostic Effect}
    (h : Meets registers arguments (Allowed registers labels arguments operation) x) :
    Allowed registers labels arguments operation (settle x) := by
  cases x <;> exact h

section Operands

variable (operation : Operation) {target left right operand label v : Value}

theorem meets_assignment (htarget : target ∈ arguments) (hv : v ∈ arguments) :
    Meets registers arguments (Allowed registers labels arguments operation)
      (assignment registers target v) := by
  apply (Meets.target htarget).bind
  intro name _
  apply (Meets.found hv).bind
  intro found _
  trivial

theorem meets_arithmetic (op : Int → Int → Int) (htarget : target ∈ arguments)
    (hleft : left ∈ arguments) (hright : right ∈ arguments) :
    Meets registers arguments (Allowed registers labels arguments operation)
      (arithmetic registers op target left right) := by
  apply (Meets.integer hleft).bind
  intro a _
  apply (Meets.integer hright).bind
  intro b _
  apply (Meets.target htarget).bind
  intro name _
  trivial

theorem meets_printing :
    Meets registers arguments (Allowed registers labels arguments operation)
      (printing registers arguments) := by
  apply (Meets.texts fun v hv => hv).bind
  intro texts _
  trivial

theorem meets_toLabel (v : Value) :
    Meets registers arguments (Allowed registers labels arguments operation)
      (toLabel registers labels v) := by
  rw [toLabel]
  split
  · split
    · rename_i hlabel
      exact .inr ⟨_, hlabel⟩
    · exact .invalidLabel v
  · exact .invalidLabel v

theorem meets_conditional (condition : Int → Bool) (hoperand : operand ∈ arguments) :
    Meets registers arguments (Allowed registers labels arguments operation)
      (conditional registers labels condition operand label) := by
  apply (Meets.integer hoperand).bind
  intro n _
  split
  · exact meets_toLabel operation label
  · trivial

theorem meets_toValue (v : Value) :
    Meets registers arguments (Allowed registers labels arguments .jv) (toValue registers v) := by
  rw [toValue]
  split
  · split
    · exact .inl rfl
    · exact .invalidDestination v
  · exact .invalidDestination v

end Operands

end Effect

namespace Operation

variable {registers : Table Value} {labels : Table Nat}

theorem allowed_of_effect {operation : Operation} {arguments : List Value} {e : Effect}
    (h : operation.effect registers labels arguments = some e) :
    e.Allowed registers labels arguments operation := by
  revert h
  fun_cases Operation.effect registers labels operation arguments <;> rintro ⟨⟩
  case case1 => trivial
  case case2 => exact Effect.allowed_settle (Effect.meets_assignment _ (by simp) (by simp))
  case case9 => exact Effect.allowed_settle (Effect.meets_toLabel ..)
  case case10 => exact Effect.allowed_settle (Effect.meets_toValue ..)
  case case11 | case12 => exact Effect.allowed_settle (Effect.meets_conditional _ _ (by simp))
  case case13 => exact Effect.allowed_settle (Effect.meets_printing ..)
  case case14 => rfl
  all_goals
    exact Effect.allowed_settle (Effect.meets_arithmetic _ _ (by simp) (by simp) (by simp))

def needed : Operation → Nat
  | .nop | .print | .halt => 0
  | .jmp | .jv => 1
  | .set | .add | .sub | .mul | .jz | .jnz => 2

theorem exists_effect {operation : Operation} {arguments : List Value}
    (h : operation.needed ≤ arguments.length) :
    ∃ e, operation.effect registers labels arguments = some e := by
  cases operation with
  | nop | print | halt => exact ⟨_, rfl⟩
  | jmp | jv =>
    obtain ⟨a, rest, rfl⟩ := List.exists_cons_of_length_pos h
    exact ⟨_, rfl⟩
  | set | jz | jnz =>
    obtain ⟨a, rest, rfl⟩ := List.exists_cons_of_length_pos (Nat.lt_of_succ_lt h)
    obtain ⟨b, rest, rfl⟩ := List.exists_cons_of_length_pos (Nat.lt_of_succ_lt_succ h)
    exact ⟨_, rfl⟩
  | add | sub | mul =>
    obtain ⟨a, rest, rfl⟩ := List.exists_cons_of_length_pos (Nat.lt_of_succ_lt h)
    obtain ⟨b, rest, rfl⟩ := List.exists_cons_of_length_pos (Nat.lt_of_succ_lt_succ h)
    cases rest <;> exact ⟨_, rfl⟩

end Operation

namespace Instruction

variable {i : Instruction} {registers : Table Value} {labels : Table Nat} {arguments : List Value}

theorem exists_operation_of_mem_standard (h : i ∈ standard) :
    ∃ operation, i.body = .standard operation ∧ operation.needed = i.arity.least := by
  simp only [standard, List.mem_cons, List.not_mem_nil, or_false] at h
  rcases h with rfl | rfl | rfl | rfl | rfl | rfl | rfl | rfl | rfl | rfl | rfl <;>
    exact ⟨_, rfl, rfl⟩

theorem body_iff_name (h : i ∈ standard) :
    (i.body = .standard .halt ↔ i.name = "HALT") ∧ (i.body = .standard .jv ↔ i.name = "JV") := by
  simp only [standard, List.mem_cons, List.not_mem_nil, or_false] at h
  rcases h with rfl | rfl | rfl | rfl | rfl | rfl | rfl | rfl | rfl | rfl | rfl <;> simp

theorem accepts_halt (h : i ∈ standard) (hname : i.name = "HALT") (count : Nat) :
    i.arity.accepts count = true ↔ count = 0 := by
  simp only [standard, List.mem_cons, List.not_mem_nil, or_false] at h
  rcases h with rfl | rfl | rfl | rfl | rfl | rfl | rfl | rfl | rfl | rfl | rfl <;>
    simp [Arity.accepts, Arity.exactly] at hname ⊢

theorem isWritable_of_mem_bounds : ∀ i ∈ standard, ∀ n ∈ i.arity.bounds, Numeral.IsWritable n := by
  decide

theorem effect_cases (h : i ∈ standard) (registers : Table Value) (labels : Table Nat)
    (arguments : List Value) :
    (i.arity.accepts arguments.length = true ∧ ∃ operation, i.body = .standard operation ∧
        operation.effect registers labels arguments = some (i.effect registers labels arguments)) ∨
      (i.arity.accepts arguments.length = false ∧ i.effect registers labels arguments =
        .fail (.argumentCount i.name i.arity arguments.length)) := by
  cases haccepts : i.arity.accepts arguments.length with
  | false => exact .inr ⟨rfl, by simp [effect, haccepts]⟩
  | true =>
    obtain ⟨operation, hbody, hneeded⟩ := exists_operation_of_mem_standard h
    have hleast : i.arity.least ≤ arguments.length := by
      simp only [Arity.accepts, Bool.and_eq_true, decide_eq_true_eq] at haccepts
      omega
    obtain ⟨e, he⟩ := @Operation.exists_effect registers labels operation arguments (by omega)
    refine .inl ⟨rfl, operation, hbody, ?_⟩
    simp [effect, haccepts, hbody, he]

/-- A standard instruction fails for its operands or for their number. -/
theorem diagnostic_of_effect_eq_fail (h : i ∈ standard) {d : Diagnostic}
    (hfail : i.effect registers labels arguments = .fail d) :
    d.OfOperands registers arguments ∨ d = .argumentCount i.name i.arity arguments.length := by
  rcases effect_cases h registers labels arguments with ⟨-, operation, -, heffect⟩ | ⟨-, heffect⟩
  · rw [hfail] at heffect
    exact .inl (Operation.allowed_of_effect heffect)
  · rw [hfail] at heffect
    exact .inr (Effect.fail.inj heffect)

theorem isWarning_of_effect_eq_fail (h : i ∈ standard) {d : Diagnostic}
    (hfail : i.effect registers labels arguments = .fail d) : d.isWarning = false := by
  rcases diagnostic_of_effect_eq_fail h hfail with hoperands | rfl
  · cases hoperands <;> rfl
  · rfl

theorem label_of_effect_eq_goto (h : i ∈ standard) (hname : i.name ≠ "JV") {index : Nat}
    (hgoto : i.effect registers labels arguments = .goto index) :
    ∃ name, labels.get? name = some index := by
  rcases effect_cases h registers labels arguments with ⟨-, operation, hbody, heffect⟩ | ⟨-, heffect⟩
  · rw [hgoto] at heffect
    rcases Operation.allowed_of_effect heffect with rfl | hlabel
    · exact absurd ((body_iff_name h).2.mp hbody) hname
    · exact hlabel
  · rw [hgoto] at heffect
    cases heffect

theorem effect_eq_stop_iff (h : i ∈ standard) :
    i.effect registers labels arguments = .stop ↔ i.name = "HALT" ∧ arguments = [] := by
  constructor
  · intro hstop
    rcases effect_cases h registers labels arguments with
      ⟨haccepts, operation, hbody, heffect⟩ | ⟨-, heffect⟩
    · rw [hstop] at heffect
      have hhalt : operation = .halt := Operation.allowed_of_effect heffect
      have hname : i.name = "HALT" := (body_iff_name h).1.mp (hhalt ▸ hbody)
      exact ⟨hname, List.length_eq_zero_iff.mp ((accepts_halt h hname _).mp haccepts)⟩
    · rw [hstop] at heffect
      cases heffect
  · rintro ⟨hname, rfl⟩
    have haccepts := (accepts_halt h hname 0).mpr rfl
    have hbody := (body_iff_name h).1.mpr hname
    rw [effect, List.length_nil, if_pos haccepts, hbody]
    rfl

end Instruction

namespace Machine

/-- Executing a standard instruction is its one effect and never a fault. -/
theorem execute_standard {i : Instruction} (h : i ∈ Instruction.standard) (m : Machine)
    (arguments : List Value) :
    m.execute i arguments = ((i.effect m.registers m.labels arguments).apply m, .ok ()) := by
  rw [execute, executeWithin]
  rcases Instruction.effect_cases h m.registers m.labels arguments with
    ⟨haccepts, operation, hbody, heffect⟩ | ⟨haccepts, heffect⟩
  · simp only [haccepts, if_true, hbody, Operation.perform_eq, heffect]
  · rw [heffect, haccepts, if_neg Bool.false_ne_true, reportShowing,
      if_pos (Instruction.isWritable_of_mem_bounds i h)]
    rfl

/-- The instructions are the standard ones, in any order of registration. -/
def IsStandard (m : Machine) : Prop :=
  ∀ name, m.instructions.get? name = standard.instructions.get? name

theorem IsStandard.mem {m : Machine} (hstandard : m.IsStandard) {name : String} {i : Instruction}
    (h : m.instructions.get? name = some i) : i ∈ Instruction.standard ∧ i.name = name := by
  have hall : standard.instructions = Instruction.standard.map fun i => (i.name, i) := by rfl
  rw [hstandard, hall] at h
  obtain ⟨found, hfound, hpair⟩ := List.mem_map.mp (Table.mem_of_get? h)
  cases hpair
  exact ⟨hfound, rfl⟩

theorem IsStandard.has_eq {m : Machine} (h : m.IsStandard) :
    m.instructions.has = standard.instructions.has := by
  funext name
  rw [Table.has, h name]
  rfl

end Machine

end LineAssembly
