import LineAssembly.Proofs.Statement.Run

/-! # Exact arithmetic

Here assignments and arithmetic are evaluated over integers of any size, and nothing is wrapped. The
machine goes the same way, in the same statements and up to the same failure, and its registers hold the
exact results modulo `2 ^ 32`.
-/

set_option autoImplicit false

namespace LineAssembly

namespace Value

theorem eq_wrap_iff (k n : Int) :
    k = wrap n ↔ leastInt ≤ k ∧ k ≤ greatestInt ∧ (k - n) % 0x100000000 = 0 := by
  have hcongr := wrap_congr n
  have hrange := wrap_inRange n
  simp only [leastInt, greatestInt] at hrange ⊢
  constructor
  · rintro rfl
    exact ⟨hrange.1, hrange.2, hcongr⟩
  · rintro ⟨hleast, hgreatest, hk⟩
    omega

theorem toInt_ofInt_wrap (n : Int) : (Int32.ofInt (wrap n)).toInt = wrap n := by
  rw [Int32.toInt_ofInt]
  exact Int.bmod_bmod ..

theorem ofInt_wrap_toInt (n : Int32) : Int32.ofInt (wrap n.toInt) = n := by
  have hrange : wrap n.toInt = n.toInt := Int32.toInt_bmod n
  rw [hrange, Int32.ofInt_toInt]

end Value

/-- A value whose integer may have any size. -/
inductive Exact where
  | int (n : Int)
  | label (name : String)
  | register (name : String)
  | empty
deriving DecidableEq, Repr

namespace Exact

def ofValue : Value → Exact
  | .int n => .int n.toInt
  | .label name => .label name
  | .register name => .register name
  | .empty => .empty

def wrapped : Exact → Value
  | .int n => .int (Int32.ofInt (Value.wrap n))
  | .label name => .label name
  | .register name => .register name
  | .empty => .empty

theorem wrapped_ofValue (v : Value) : (ofValue v).wrapped = v := by
  cases v with
  | int n => exact congrArg Value.int (Value.ofInt_wrap_toInt n)
  | label | register | empty => rfl

theorem mapEntries_ofValue (registers : Table Value) :
    Table.mapEntries wrapped (registers.mapEntries ofValue) = registers := by
  simp [Table.mapEntries, Function.comp_def, wrapped_ofValue]

section Evaluation

variable (registers : Table Exact)

/-- A reference is followed once. -/
def resolve : Exact → Option Exact
  | .register name => registers.get? name
  | v => some v

def integer (v : Exact) : Option Int := do
  match ← v.resolve registers with
  | .int n => some n
  | _ => none

def destination : Exact → Option String
  | .register name => if registers.has name then some name else none
  | _ => none

def assign (target v : Exact) : Option (Table Exact) := do
  let name ← target.destination registers
  let found ← v.resolve registers
  return registers.put name found

def calculate (op : Int → Int → Int) (target left right : Exact) : Option (Table Exact) := do
  let a ← left.integer registers
  let b ← right.integer registers
  let name ← target.destination registers
  return registers.put name (.int (op a b))

def operator : String → Option (Int → Int → Int)
  | "ADD" => some (· + ·)
  | "SUB" => some (· - ·)
  | "MUL" => some (· * ·)
  | _ => none

/-- The registers after a statement, or none if it fails. -/
def perform (mnemonic : String) : List Exact → Option (Table Exact)
  | [target, v] =>
    if mnemonic = "SET" then assign registers target v
    else do calculate registers (← operator mnemonic) target target v
  | [target, left, right] => do calculate registers (← operator mnemonic) target left right
  | _ => none

end Evaluation

def mnemonics : List String :=
  ["SET", "ADD", "SUB", "MUL"]

def operands (s : Statement) : List Exact :=
  s.operands.map fun o => ofValue o.passed

/-- The registers at the end of a program or before the statement that fails, and the number of that
statement. -/
def runFrom (number : Nat) (registers : Table Exact) : List Statement → Table Exact × Option Nat
  | [] => (registers, none)
  | s :: rest =>
    match perform registers s.mnemonic (operands s) with
    | none => (registers, some number)
    | some after => runFrom (number + 1) after rest

end Exact

/-- An answer of the machine and the exact one. Both may fail, but not for the size of a number. -/
def Mirrors {α β : Type} (R : α → β → Prop) : Except Diagnostic α → Option β → Prop
  | .ok a, some b => R a b
  | .error d, none => ∀ n, d ≠ .integerOutOfRange n
  | _, _ => False

namespace Mirrors

theorem bind {α β γ δ : Type} {R : α → β → Prop} {S : γ → δ → Prop} {x : Except Diagnostic α}
    {y : Option β} {f : α → Except Diagnostic γ} {g : β → Option δ} (h : Mirrors R x y)
    (hbind : ∀ a b, R a b → Mirrors S (f a) (g b)) : Mirrors S (x >>= f) (y >>= g) := by
  cases x with
  | error d =>
    cases y with
    | none => exact h
    | some b => exact h.elim
  | ok a =>
    cases y with
    | none => exact h.elim
    | some b => exact hbind a b h

variable (registers : Table Exact)

theorem found (v : Value) :
    Mirrors (fun found exact => found = exact.wrapped) (v.found (registers.mapEntries Exact.wrapped))
      ((Exact.ofValue v).resolve registers) := by
  cases v with
  | register name =>
    simp only [Value.found, Value.resolve, Exact.ofValue, Exact.resolve, Table.get?_mapEntries]
    cases registers.get? name with
    | none => rintro n ⟨⟩
    | some exact => rfl
  | int n => exact (Exact.wrapped_ofValue (.int n)).symm
  | label | empty => rfl

theorem integer (v : Value) :
    Mirrors (fun a exact => a = Value.wrap exact) (v.integer (registers.mapEntries Exact.wrapped))
      ((Exact.ofValue v).integer registers) := by
  apply (found registers v).bind
  rintro _ exact rfl
  cases exact with
  | int n => exact Value.toInt_ofInt_wrap n
  | label | register | empty => rintro n ⟨⟩

theorem target (v : Value) :
    Mirrors (· = ·) (v.target (registers.mapEntries Exact.wrapped))
      ((Exact.ofValue v).destination registers) := by
  cases v with
  | register name =>
    simp only [Value.target, Exact.ofValue, Exact.destination, Table.has_mapEntries]
    split
    · rfl
    · rintro n ⟨⟩
  | int | label | empty => rintro n ⟨⟩

end Mirrors

namespace Effect

/-- An effect that stores what the exact registers have got. -/
def Stores (registers : Table Exact) (e : Effect) (after : Table Exact) : Prop :=
  ∃ name exact, e = .store name exact.wrapped ∧ after = registers.put name exact

variable (registers : Table Exact)

theorem mirrors_assignment (target v : Value) :
    Mirrors (Stores registers) (assignment (registers.mapEntries Exact.wrapped) target v)
      (Exact.assign registers (.ofValue target) (.ofValue v)) := by
  apply (Mirrors.target registers target).bind
  rintro name _ rfl
  apply (Mirrors.found registers v).bind
  rintro _ exact rfl
  exact ⟨name, exact, rfl, rfl⟩

/-- It makes no difference whether the operands are wrapped before the operation. -/
theorem mirrors_arithmetic {op : Int → Int → Int}
    (hop : ∀ a b, Value.wrap (op (Value.wrap a) (Value.wrap b)) = Value.wrap (op a b))
    (target left right : Value) :
    Mirrors (Stores registers)
      (arithmetic (registers.mapEntries Exact.wrapped) op target left right)
      (Exact.calculate registers op (.ofValue target) (.ofValue left) (.ofValue right)) := by
  apply (Mirrors.integer registers left).bind
  rintro _ a rfl
  apply (Mirrors.integer registers right).bind
  rintro _ b rfl
  apply (Mirrors.target registers target).bind
  rintro name _ rfl
  refine ⟨name, .int (op a b), ?_, rfl⟩
  rw [hop]
  rfl

end Effect

namespace Instruction

open Effect

variable {i : Instruction} (registers : Table Exact) (labels : Table Nat) (arguments : List Value)

/-- What an instruction does mirrors the exact statement. -/
def Mirrored (i : Instruction) : Prop :=
  ∃ x, i.effect (registers.mapEntries Exact.wrapped) labels arguments = .settle x ∧
    Mirrors (Stores registers) x (Exact.perform registers i.name (arguments.map Exact.ofValue))

variable {registers labels arguments}

theorem mirrored_of_refused (haccepts : i.arity.accepts arguments.length = false)
    (hperform : Exact.perform registers i.name (arguments.map Exact.ofValue) = none) :
    i.Mirrored registers labels arguments := by
  refine ⟨.error (.argumentCount i.name i.arity arguments.length), ?_, ?_⟩
  · rw [effect, haccepts]
    rfl
  · rw [hperform]
    rintro n ⟨⟩

theorem mirrored_set :
    Mirrored registers labels arguments ⟨"SET", Arity.exactly 2, .standard .set⟩ := by
  rcases arguments with _ | ⟨target, _ | ⟨v, _ | ⟨a, _ | ⟨b, rest⟩⟩⟩⟩
  case cons.cons.nil => exact ⟨_, rfl, mirrors_assignment registers target v⟩
  all_goals exact mirrored_of_refused (by simp [Arity.accepts, Arity.exactly] <;> omega) rfl

theorem mirrored_arithmetic {operation : Operation} {op : Int → Int → Int}
    (harity : i.arity = Arity.between 2 3 (by decide)) (hbody : i.body = .standard operation)
    (hname : i.name ≠ "SET") (hoperator : Exact.operator i.name = some op)
    (hop : ∀ a b, Value.wrap (op (Value.wrap a) (Value.wrap b)) = Value.wrap (op a b))
    (htwo : ∀ registers target right, operation.effect registers labels [target, right] =
      some (.settle (arithmetic registers op target target right)))
    (hthree : ∀ registers target left right, operation.effect registers labels [target, left, right] =
      some (.settle (arithmetic registers op target left right))) :
    i.Mirrored registers labels arguments := by
  rcases arguments with _ | ⟨target, _ | ⟨a, _ | ⟨b, _ | ⟨c, rest⟩⟩⟩⟩
  case cons.cons.nil =>
    refine ⟨arithmetic (registers.mapEntries Exact.wrapped) op target target a, ?_, ?_⟩
    · simp [effect, harity, hbody, Arity.accepts, Arity.between, htwo]
    · simp only [List.map_cons, List.map_nil, Exact.perform, if_neg hname, hoperator]
      exact mirrors_arithmetic registers hop target target a
  case cons.cons.cons.nil =>
    refine ⟨arithmetic (registers.mapEntries Exact.wrapped) op target a b, ?_, ?_⟩
    · simp [effect, harity, hbody, Arity.accepts, Arity.between, hthree]
    · simp only [List.map_cons, List.map_nil, Exact.perform, hoperator]
      exact mirrors_arithmetic registers hop target a b
  all_goals
    exact mirrored_of_refused (by rw [harity]; simp [Arity.accepts, Arity.between] <;> omega) rfl

theorem mirrored_of_mem_standard (hi : i ∈ standard) (hname : i.name ∈ Exact.mnemonics)
    (registers : Table Exact) (labels : Table Nat) (arguments : List Value) :
    i.Mirrored registers labels arguments := by
  simp only [standard, List.mem_cons, List.not_mem_nil, or_false] at hi
  rcases hi with rfl | rfl | rfl | rfl | rfl | rfl | rfl | rfl | rfl | rfl | rfl
  case inr.inl => exact mirrored_set
  case inr.inr.inl | inr.inr.inr.inl | inr.inr.inr.inr.inl =>
    exact mirrored_arithmetic rfl rfl (by decide) rfl (fun a b => by simp [Value.wrap])
      (fun _ _ _ => rfl) (fun _ _ _ _ => rfl)
  all_goals exact absurd hname (by decide)

end Instruction

namespace Exact

variable {registers after : Table Exact} {v target left right : Exact}

theorem isSome_resolve_of_destination {name : String}
    (h : target.destination registers = some name) : (target.resolve registers).isSome = true := by
  cases target with
  | register other =>
    simp only [destination, Option.ite_none_right_eq_some] at h
    exact h.1
  | int | label | empty => cases h

theorem isSome_resolve_of_integer {n : Int} (h : v.integer registers = some n) :
    (v.resolve registers).isSome = true := by
  obtain ⟨found, hfound, -⟩ := Option.bind_eq_some_iff.mp h
  rw [hfound]
  rfl

theorem isSome_resolve_of_assign (h : assign registers target v = some after) :
    (target.resolve registers).isSome = true ∧ (v.resolve registers).isSome = true := by
  obtain ⟨name, hname, h⟩ := Option.bind_eq_some_iff.mp h
  obtain ⟨found, hfound, -⟩ := Option.bind_eq_some_iff.mp h
  exact ⟨isSome_resolve_of_destination hname, Option.isSome_of_eq_some hfound⟩

theorem isSome_resolve_of_calculate {op : Int → Int → Int}
    (h : calculate registers op target left right = some after) :
    (target.resolve registers).isSome = true ∧ (left.resolve registers).isSome = true ∧
      (right.resolve registers).isSome = true := by
  obtain ⟨a, ha, h⟩ := Option.bind_eq_some_iff.mp h
  obtain ⟨b, hb, h⟩ := Option.bind_eq_some_iff.mp h
  obtain ⟨name, hname, -⟩ := Option.bind_eq_some_iff.mp h
  exact ⟨isSome_resolve_of_destination hname, isSome_resolve_of_integer ha,
    isSome_resolve_of_integer hb⟩

/-- Nothing is done unless every operand is there, so it does not matter that the machine looks for their
registers first. -/
theorem isSome_resolve_of_perform {mnemonic : String} {operands : List Exact}
    (h : perform registers mnemonic operands = some after) (hv : v ∈ operands) :
    (v.resolve registers).isSome = true := by
  revert h
  fun_cases perform registers mnemonic operands with
  | case1 target other hset =>
    intro h
    obtain ⟨htarget, hother⟩ := isSome_resolve_of_assign h
    simp only [List.mem_cons, List.not_mem_nil, or_false] at hv
    rcases hv with rfl | rfl
    · exact htarget
    · exact hother
  | case2 target right hset =>
    intro h
    obtain ⟨op, -, h⟩ := Option.bind_eq_some_iff.mp h
    obtain ⟨htarget, -, hright⟩ := isSome_resolve_of_calculate h
    simp only [List.mem_cons, List.not_mem_nil, or_false] at hv
    rcases hv with rfl | rfl
    · exact htarget
    · exact hright
  | case3 target left right =>
    intro h
    obtain ⟨op, -, h⟩ := Option.bind_eq_some_iff.mp h
    obtain ⟨htarget, hleft, hright⟩ := isSome_resolve_of_calculate h
    simp only [List.mem_cons, List.not_mem_nil, or_false] at hv
    rcases hv with rfl | rfl | rfl
    · exact htarget
    · exact hleft
    · exact hright
  | case4 => exact nofun

theorem declared_of_perform {s : Statement}
    (h : perform registers s.mnemonic (operands s) = some after) :
    s.operands.all (Statement.Operand.declared (registers.mapEntries wrapped)) = true := by
  rw [List.all_eq_true]
  intro o ho
  have hsome := isSome_resolve_of_perform h (List.mem_map_of_mem ho)
  cases o with
  | value v => rfl
  | register name => rwa [Statement.Operand.declared, Table.has_mapEntries]

end Exact

namespace Statement

variable {program : List Statement} {m final : Machine} {r : Run} {k : Nat} {s : Statement}
  {registers after : Table Exact}

/-- Between two statements: so far there was no failure, and the registers are the exact ones, wrapped. -/
structure Tracks (program : List Statement) (m : Machine) (k : Nat) (registers : Table Exact)
    (r : Run) : Prop where
  standard : r.machine.IsStandard
  running : r.machine.halted = false
  pending : r.pending = none
  cursor : r.machine.cursor = offset program k
  registers : r.machine.registers = registers.mapEntries Exact.wrapped
  diagnostics : r.machine.diagnostics = m.diagnostics

/-- The end of a program, or the one failure in the statement of the given number. The machine stops at
a token of that statement or right behind it. -/
inductive Concluded (program : List Statement) (m final : Machine) : Option Nat → Prop where
  | finished (running : final.halted = false) (diagnostics : final.diagnostics = m.diagnostics) :
    Concluded program m final none
  | failed {number : Nat} (d : Diagnostic) (halted : final.halted = true)
    (diagnostics : final.diagnostics = m.diagnostics.push d) (size : ∀ n, d ≠ .integerOutOfRange n)
    (begun : offset program number < final.cursor)
    (inside : final.cursor ≤ offset program (number + 1)) : Concluded program m final (some number)

theorem exists_instruction (hstandard : m.IsStandard) {name : String} (h : name ∈ Exact.mnemonics) :
    ∃ i, m.instructions.get? name = some i := by
  rw [hstandard]
  simp only [Exact.mnemonics, List.mem_cons, List.not_mem_nil, or_false] at h
  rcases h with rfl | rfl | rfl | rfl <;> exact ⟨_, rfl⟩

namespace Tracks

theorem step_mnemonic (h : Tracks program m k registers r) (hs : program[k]? = some s)
    (hmnemonic : s.mnemonic ∈ Exact.mnemonics) :
    ∃ i ∈ Instruction.standard, i.name = s.mnemonic ∧ r.step (stream program).toArray =
      .next ⟨placed r.machine (offset program k + 1), some i, []⟩ := by
  obtain ⟨i, hfound⟩ := exists_instruction h.standard hmnemonic
  obtain ⟨hi, hname⟩ := h.standard.mem hfound
  have hat := h.cursor ▸ statementAt_stream hs
  have hstep := Statement.step_mnemonic h.running h.pending hat.mnemonic
  rw [hfound, h.cursor] at hstep
  exact ⟨i, hi, hname, hstep⟩

theorem exists_effect (h : Tracks program m k registers r) {i : Instruction}
    (hi : i ∈ Instruction.standard) (hname : i.name = s.mnemonic)
    (hmnemonic : s.mnemonic ∈ Exact.mnemonics) :
    ∃ x, i.effect r.machine.registers r.machine.labels (s.operands.map Operand.passed) = .settle x ∧
      Mirrors (Effect.Stores registers) x
        (Exact.perform registers s.mnemonic (Exact.operands s)) := by
  have hoperands : Exact.operands s = (s.operands.map Operand.passed).map Exact.ofValue := by
    rw [List.map_map]
    rfl
  rw [h.registers, ← hname, hoperands]
  exact Instruction.mirrored_of_mem_standard hi (hname ▸ hmnemonic) ..

theorem steps_effect (h : Tracks program m k registers r) (hs : program[k]? = some s)
    {i : Instruction} (hi : i ∈ Instruction.standard)
    (hdeclared : s.operands.all (Operand.declared r.machine.registers) = true) {e : Effect}
    (heffect : i.effect r.machine.registers r.machine.labels (s.operands.map Operand.passed) = e) :
    Run.Steps (stream program).toArray (s.operands.length + 1)
      ⟨placed r.machine (offset program k + 1), some i, []⟩
      (Run.continued (e.apply (placed r.machine (offset program k + 1 + s.operands.length)))) := by
  have hat := statementAt_stream hs
  have hcollected := steps_operands i [] h.running hat.operands hdeclared
  have hexecuted := step_statementEnd (s.operands.map Operand.passed) h.running hat.last hi
  rw [heffect] at hexecuted
  exact hcollected.trans (.single hexecuted)

theorem step_of_some (h : Tracks program m k registers r) (hs : program[k]? = some s)
    (hmnemonic : s.mnemonic ∈ Exact.mnemonics)
    (hperform : Exact.perform registers s.mnemonic (Exact.operands s) = some after) :
    ∃ r', Run.Steps (stream program).toArray s.tokens.length r r' ∧
      Tracks program m (k + 1) after r' := by
  obtain ⟨i, hi, hname, hfirst⟩ := h.step_mnemonic hs hmnemonic
  obtain ⟨x, heffect, hmirrors⟩ := h.exists_effect hi hname hmnemonic
  have hdeclared := Exact.declared_of_perform hperform
  rw [← h.registers] at hdeclared
  rw [hperform] at hmirrors
  cases x with
  | error d => exact hmirrors.elim
  | ok e =>
    obtain ⟨name, exact, rfl, rfl⟩ := hmirrors
    have hsteps := h.steps_effect hs hi hdeclared heffect
    rw [length_tokens]
    refine ⟨_, .head hfirst hsteps, h.standard, h.running, rfl, ?_, ?_, h.diagnostics⟩
    · rw [offset_succ hs, length_tokens]
      change offset program k + 1 + s.operands.length + 1 = _
      omega
    · rw [Table.mapEntries_put, ← h.registers]
      rfl

theorem step_of_none (h : Tracks program m k registers r) (hs : program[k]? = some s)
    (hmnemonic : s.mnemonic ∈ Exact.mnemonics)
    (hperform : Exact.perform registers s.mnemonic (Exact.operands s) = none) :
    ∃ n r', n ≤ s.tokens.length ∧ Run.Steps (stream program).toArray n r r' ∧
      r'.machine.registers = registers.mapEntries Exact.wrapped ∧
      Concluded program m r'.machine (some k) := by
  obtain ⟨i, hi, hname, hfirst⟩ := h.step_mnemonic hs hmnemonic
  have hnext := offset_succ hs
  rw [length_tokens] at hnext ⊢
  -- A register that does not exist stops the machine at its token, before anything is executed.
  cases hdeclared : s.operands.all (Operand.declared r.machine.registers) with
  | false =>
    obtain ⟨n, name, collected, hn, hsteps⟩ :=
      steps_undeclared i [] h.running (statementAt_stream hs).operands hdeclared
    refine ⟨n + 2, _, by omega, .head hfirst hsteps, h.registers,
      .failed _ rfl (congrArg (Array.push · _) h.diagnostics) nofun ?_ ?_⟩
    · change offset program k < offset program k + 1 + n
      omega
    · change offset program k + 1 + n ≤ _
      omega
  | true =>
    obtain ⟨x, heffect, hmirrors⟩ := h.exists_effect hi hname hmnemonic
    rw [hperform] at hmirrors
    cases x with
    | ok e => exact hmirrors.elim
    | error d =>
      have hsteps := h.steps_effect hs hi hdeclared heffect
      refine ⟨s.operands.length + 2, _, Nat.le_refl _, .head hfirst hsteps, h.registers,
        .failed d rfl (congrArg (Array.push · d) h.diagnostics) hmirrors ?_ ?_⟩
      · change offset program k < offset program k + 1 + s.operands.length + 1
        omega
      · change offset program k + 1 + s.operands.length + 1 ≤ _
        omega

theorem ended (h : Tracks program m k registers r) (hend : program.length ≤ k) :
    r.step (stream program).toArray = .ended r.machine (.ok ()) := by
  have hnone : (stream program).toArray[r.machine.cursor]? = none := by
    simp [h.cursor, offset, List.take_of_length_le hend]
  rw [Run.step, hnone]

/-- One statement after the other, up to the end or to the first that fails. -/
theorem run {rest : List Statement} (h : Tracks program m k registers r) (hrest : program.drop k = rest)
    (hmnemonics : ∀ s ∈ rest, s.mnemonic ∈ Exact.mnemonics) :
    ∃ n last, offset program k + n ≤ (stream program).length ∧
      Run.Steps (stream program).toArray n r last ∧
      last.step (stream program).toArray = .ended last.machine (.ok ()) ∧
      last.machine.registers = (Exact.runFrom k registers rest).1.mapEntries Exact.wrapped ∧
      Concluded program m last.machine (Exact.runFrom k registers rest).2 := by
  induction rest generalizing k registers r with
  | nil =>
    exact ⟨0, r, offset_le program k, .refl r, h.ended (List.drop_eq_nil_iff.mp hrest), h.registers,
      .finished h.running h.diagnostics⟩
  | cons s rest ih =>
    have hs : program[k]? = some s := by rw [← List.head?_drop, hrest, List.head?_cons]
    have htail : program.drop (k + 1) = rest := by rw [← List.tail_drop, hrest, List.tail_cons]
    obtain ⟨hmnemonic, hothers⟩ := List.forall_mem_cons.mp hmnemonics
    have hnext := offset_succ hs
    rw [Exact.runFrom]
    cases hperform : Exact.perform registers s.mnemonic (Exact.operands s) with
    | none =>
      obtain ⟨n, last, hn, hsteps, hregisters, hconcluded⟩ := h.step_of_none hs hmnemonic hperform
      have hle := offset_le program (k + 1)
      have hhalted : last.machine.halted = true := by
        cases hconcluded with
        | failed _ halted => exact halted
      exact ⟨n, last, by omega, hsteps, Run.step_of_halted hhalted, hregisters, hconcluded⟩
    | some after =>
      obtain ⟨r', hfirst, htracks⟩ := h.step_of_some hs hmnemonic hperform
      obtain ⟨n, last, hn, hsteps, hlast⟩ := ih htracks htail hothers
      exact ⟨s.tokens.length + n, last, by omega, hfirst.trans hsteps, hlast⟩

end Tracks

theorem tracks_start (hstandard : m.IsStandard) (hrunning : m.halted = false)
    (program : List Statement) :
    Tracks program m 0 (m.registers.mapEntries Exact.ofValue) m.start where
  standard := hstandard
  running := hrunning
  pending := rfl
  cursor := rfl
  registers := (Exact.mapEntries_ofValue m.registers).symm
  diagnostics := rfl

/-- A program of assignments and arithmetic ends, and does modulo `2 ^ 32` what it does exactly. -/
theorem run_exact (program : List Statement) (m : Machine) (hstandard : m.IsStandard)
    (hrunning : m.halted = false) (hmnemonics : ∀ s ∈ program, s.mnemonic ∈ Exact.mnemonics) :
    (∃ final exact failure, m.run ((stream program).length + 1) (stream program) = some (final, .ok ()) ∧
      Exact.runFrom 0 (m.registers.mapEntries Exact.ofValue) program = (exact, failure) ∧
      final.registers = exact.mapEntries Exact.wrapped ∧ Concluded program m final failure) ∧
    ∀ n : Int, (∃ i : Int32, (Exact.int n).wrapped = .int i ∧ i.toInt = Value.wrap n) ∧
      ∀ k, k = Value.wrap n ↔
        Value.leastInt ≤ k ∧ k ≤ Value.greatestInt ∧ (k - n) % 0x100000000 = 0 := by
  constructor
  · obtain ⟨n, last, hn, hsteps, hended, hregisters, hconcluded⟩ :=
      (tracks_start hstandard hrunning program).run rfl hmnemonics
    refine ⟨last.machine, _, _, ?_, rfl, hregisters, hconcluded⟩
    have hfuel : (stream program).length + 1 = n + ((stream program).length - n + 1) := by omega
    rw [Machine.run, hfuel, hsteps.upTo_add, Run.upTo_of_ended hended]
  · intro n
    exact ⟨⟨_, rfl, Value.toInt_ofInt_wrap n⟩, fun k => Value.eq_wrap_iff k n⟩

/-- The first statements leave the range, also where the destination is a source. The label is no operand
for the last but one. -/
def overflowing : List Statement :=
  [⟨"MUL", [.register "a", .register "a", .register "a"]⟩,
   ⟨"ADD", [.register "b", .register "a", .value (.int 2147483647)]⟩,
   ⟨"SUB", [.register "b", .value (.int 1)]⟩,
   ⟨"SET", [.register "c", .value (.label "x")]⟩,
   ⟨"ADD", [.register "c", .value (.int 1)]⟩,
   ⟨"SET", [.register "a", .value (.int 0)]⟩]

def overflowingMachine : Machine :=
  { Machine.standard with registers := [("a", .int 2147483647), ("b", .empty), ("c", .empty)] }

theorem run_exact_overflowing :
    ∃ final, overflowingMachine.run 27 (stream overflowing) = some (final, .ok ()) ∧
      final.registers = [("a", .int 1), ("b", .int 2147483647), ("c", .label "x")] ∧
      final.halted = true ∧ offset overflowing 4 < final.cursor ∧
        final.cursor ≤ offset overflowing 5 := by
  have hexact : Exact.runFrom 0 (overflowingMachine.registers.mapEntries Exact.ofValue) overflowing =
      ([("a", .int 4611686014132420609), ("b", .int 4611686016279904255), ("c", .label "x")],
        some 4) := by
    decide +kernel
  have hlength : (stream overflowing).length + 1 = 27 := by decide
  obtain ⟨⟨final, exact, failure, hrun, hresult, hregisters, hconcluded⟩, -⟩ :=
    run_exact overflowing overflowingMachine (fun _ => rfl) rfl (by decide)
  rw [hexact] at hresult
  rw [hlength] at hrun
  cases hresult
  cases hconcluded with
  | failed d halted diagnostics size begun inside =>
    refine ⟨final, hrun, ?_, halted, begun, inside⟩
    rw [hregisters]
    decide +kernel

end Statement

end LineAssembly
