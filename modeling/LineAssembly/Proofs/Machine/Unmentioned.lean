import LineAssembly.Proofs.Machine.History

/-! # Registers that a program does not mention

An instruction looks at the registers through its arguments only, follows a reference once and stores in
a register that an argument names. Arguments come from the tokens of the program. So a register that no
token mentions keeps its value, and two machines that differ in this value go the same way, also where
other registers hold references to it.
-/

set_option autoImplicit false

namespace LineAssembly

namespace Value

variable {registers other : Table Value} {v : Value}

theorem found_congr (h : v.resolve other = v.resolve registers) :
    v.found other = v.found registers := by
  rw [found, found, h]

theorem integer_congr (h : v.resolve other = v.resolve registers) :
    v.integer other = v.integer registers := by
  rw [integer, integer, found_congr h]

theorem target_congr (h : v.resolve other = v.resolve registers) :
    v.target other = v.target registers := by
  cases v with
  | register name =>
    have hhas : other.has name = registers.has name := congrArg Option.isSome h
    rw [target, target, hhas]
  | int | label | empty => rfl

theorem eq_register_of_target {name : String} (h : v.target registers = .ok name) :
    v = .register name := by
  cases v with
  | register declared =>
    rw [target] at h
    split at h
    · rw [Except.ok.inj h]
    · cases h
  | int | label | empty => cases h

end Value

namespace Effect

variable {registers other : Table Value} {labels : Table Nat} {arguments : List Value}

/-- What is stored goes to a register that an argument names. -/
def StoresIn (arguments : List Value) : Effect → Prop
  | .store name _ => .register name ∈ arguments
  | _ => True

section Operands

variable {target left right operand label v : Value}

theorem storesIn_assignment (htarget : target ∈ arguments) :
    (settle (assignment registers target v)).StoresIn arguments := by
  rw [assignment]
  cases hname : target.target registers with
  | error d => trivial
  | ok name =>
    rw [Value.eq_register_of_target hname] at htarget
    cases v.found registers with
    | error d => trivial
    | ok found => exact htarget

theorem storesIn_arithmetic (op : Int → Int → Int) (htarget : target ∈ arguments) :
    (settle (arithmetic registers op target left right)).StoresIn arguments := by
  rw [arithmetic]
  cases left.integer registers with
  | error d => trivial
  | ok a =>
    cases right.integer registers with
    | error d => trivial
    | ok b =>
      cases hname : target.target registers with
      | error d => trivial
      | ok name =>
        rw [Value.eq_register_of_target hname] at htarget
        exact htarget

theorem storesIn_toLabel : (settle (toLabel registers labels v)).StoresIn arguments := by
  rw [toLabel]
  split
  · split <;> trivial
  · trivial

theorem storesIn_toValue : (settle (toValue registers v)).StoresIn arguments := by
  rw [toValue]
  split
  · split <;> trivial
  · trivial

theorem storesIn_conditional (condition : Int → Bool) :
    (settle (conditional registers labels condition operand label)).StoresIn arguments := by
  rw [conditional]
  cases operand.integer registers with
  | error d => trivial
  | ok n =>
    change (settle (if condition n then toLabel registers labels label else .ok .pass)).StoresIn _
    split
    · exact storesIn_toLabel
    · trivial

theorem storesIn_printing {printed : List Value} :
    (settle (printing registers printed)).StoresIn arguments := by
  rw [printing]
  cases texts registers printed <;> trivial

end Operands

section Congruence

variable (h : ∀ v ∈ arguments, v.resolve other = v.resolve registers)

include h

theorem assignment_congr {target v : Value} (htarget : target ∈ arguments) (hv : v ∈ arguments) :
    assignment other target v = assignment registers target v := by
  rw [assignment, assignment, Value.target_congr (h target htarget), Value.found_congr (h v hv)]

theorem arithmetic_congr (op : Int → Int → Int) {target left right : Value}
    (htarget : target ∈ arguments) (hleft : left ∈ arguments) (hright : right ∈ arguments) :
    arithmetic other op target left right = arithmetic registers op target left right := by
  rw [arithmetic, arithmetic, Value.integer_congr (h left hleft), Value.integer_congr (h right hright),
    Value.target_congr (h target htarget)]

theorem toLabel_congr {v : Value} (hv : v ∈ arguments) :
    toLabel other labels v = toLabel registers labels v := by
  rw [toLabel, toLabel, h v hv]

theorem toValue_congr {v : Value} (hv : v ∈ arguments) : toValue other v = toValue registers v := by
  rw [toValue, toValue, h v hv]

theorem conditional_congr (condition : Int → Bool) {operand label : Value}
    (hoperand : operand ∈ arguments) (hlabel : label ∈ arguments) :
    conditional other labels condition operand label =
      conditional registers labels condition operand label := by
  rw [conditional, conditional, Value.integer_congr (h operand hoperand), toLabel_congr h hlabel]

theorem texts_congr : texts other arguments = texts registers arguments := by
  induction arguments with
  | nil => rfl
  | cons v rest ih =>
    have hrest : texts other rest = texts registers rest :=
      ih fun u hu => h u (List.mem_cons_of_mem _ hu)
    rw [texts, texts, Value.found_congr (h v List.mem_cons_self), hrest]

theorem printing_congr : printing other arguments = printing registers arguments := by
  rw [printing, printing, texts_congr h]

end Congruence

end Effect

section Instruction

variable {registers other : Table Value} {labels : Table Nat} {arguments : List Value}

theorem Operation.storesIn_of_effect {operation : Operation} {e : Effect}
    (h : operation.effect registers labels arguments = some e) : e.StoresIn arguments := by
  revert h
  fun_cases Operation.effect registers labels operation arguments <;> rintro ⟨⟩
  case case1 | case14 => trivial
  case case2 => exact Effect.storesIn_assignment (by simp)
  case case9 => exact Effect.storesIn_toLabel
  case case10 => exact Effect.storesIn_toValue
  case case11 | case12 => exact Effect.storesIn_conditional _
  case case13 => exact Effect.storesIn_printing
  all_goals exact Effect.storesIn_arithmetic _ (by simp)

theorem Operation.effect_congr (h : ∀ v ∈ arguments, v.resolve other = v.resolve registers)
    (operation : Operation) :
    operation.effect other labels arguments = operation.effect registers labels arguments := by
  fun_cases Operation.effect registers labels operation arguments
  case case1 | case14 => rfl
  case case2 => rw [Operation.effect, Effect.assignment_congr h (by simp) (by simp)]
  case case9 => rw [Operation.effect, Effect.toLabel_congr h (by simp)]
  case case10 => rw [Operation.effect, Effect.toValue_congr h (by simp)]
  case case11 | case12 => rw [Operation.effect, Effect.conditional_congr h _ (by simp) (by simp)]
  case case13 => rw [Operation.effect, Effect.printing_congr h]
  case case15 => simp_all [Operation.effect]
  all_goals rw [Operation.effect, Effect.arithmetic_congr h _ (by simp) (by simp) (by simp)]

theorem Instruction.storesIn_effect (i : Instruction) (registers : Table Value) (labels : Table Nat)
    (arguments : List Value) : (i.effect registers labels arguments).StoresIn arguments := by
  rw [effect]
  split
  · split
    · rename_i operation _
      cases heffect : operation.effect registers labels arguments with
      | none => trivial
      | some e => exact Operation.storesIn_of_effect heffect
    · trivial
  · trivial

/-- The registers matter to an instruction only where its arguments lead. -/
theorem Instruction.effect_congr (h : ∀ v ∈ arguments, v.resolve other = v.resolve registers)
    (i : Instruction) : i.effect other labels arguments = i.effect registers labels arguments := by
  simp only [effect, Operation.effect_congr h]

end Instruction

namespace Machine

variable {r : String} {a b : Machine}

/-- Two machines that are alike, except for what one register holds. -/
structure AlikeBut (r : String) (a b : Machine) : Prop where
  names : b.registers.names = a.registers.names
  others : ∀ name, name ≠ r → b.registers.get? name = a.registers.get? name
  rest : b = { a with registers := b.registers }

namespace AlikeBut

variable (h : a.AlikeBut r b)

include h

theorem has_eq (name : String) : b.registers.has name = a.registers.has name := by
  rw [Bool.eq_iff_iff, Table.has_iff_mem_names, Table.has_iff_mem_names, h.names]

theorem resolve_eq {v : Value} (hv : v ≠ .register r) :
    v.resolve b.registers = v.resolve a.registers := by
  cases v with
  | register name => exact h.others name fun he => hv (by rw [he])
  | int | label | empty => rfl

theorem apply (e : Effect) : (e.apply a).AlikeBut r (e.apply b) := by
  obtain ⟨hnames, hothers, hrest⟩ := h
  rw [hrest]
  generalize b.registers = table at hnames hothers
  cases e with
  | store name v =>
    refine ⟨?_, ?_, rfl⟩
    · change (table.put name v).names = (a.registers.put name v).names
      rw [Table.names_put, Table.names_put, hnames]
    · intro other hother
      change (table.put name v).get? other = (a.registers.put name v).get? other
      rw [Table.get?_put, Table.get?_put, hothers other hother]
  | pass | emit | goto | stop | fail => exact ⟨hnames, hothers, rfl⟩

theorem continued : (Run.continued a).machine.AlikeBut r (Run.continued b).machine := by
  obtain ⟨hnames, hothers, hrest⟩ := h
  rw [hrest, Run.continued, Run.continued]
  generalize b.registers = table at hnames hothers
  simp only
  split <;> exact ⟨hnames, hothers, rfl⟩

end AlikeBut

/-- Two answers of machines that still differ in one register only, and there as they did before. -/
structure AnswersBut (r : String) (a b : Machine) (answer other : Machine × Except Fault Unit) :
    Prop where
  result : other.2 = answer.2
  machine : answer.1.AlikeBut r other.1
  kept : answer.1.registers.get? r = a.registers.get? r
  keptToo : other.1.registers.get? r = b.registers.get? r

end Machine

namespace Run

variable {program : Array Token} {r : String} {x y next : Run}

/-- A run on the standard instructions with no operand that is the register. -/
structure Avoids (r : String) (x : Run) : Prop extends Standard x where
  operands : .register r ∉ x.operands

theorem eq_of_choose_eq_collect {token : Token} {v : Value} (h : x.choose token = .collect v) :
    token = .value v ∨ ∃ name, token = .register name ∧ v = .register name := by
  cases token with
  | value u =>
    simp only [choose] at h
    split at h
    · cases h
      exact .inl rfl
    · cases h
  | register name =>
    simp only [choose] at h
    split at h
    · split at h
      · cases h
        exact .inr ⟨name, rfl, rfl⟩
      · cases h
    · cases h
  | instruction name =>
    simp only [choose] at h
    split at h
    · cases h
    · split at h <;> cases h
  | statementEnd =>
    simp only [choose] at h
    split at h <;> cases h

/-- A finished instruction stores where an operand says, so elsewhere than in the register. -/
theorem get?_after {choice : Choice} (h : .register r ∉ x.operands) :
    (x.after choice).machine.registers.get? r = x.machine.registers.get? r := by
  cases choice with
  | finish i =>
    rw [after]
    have hstores := i.storesIn_effect x.machine.registers x.machine.labels x.operands
    generalize i.effect x.machine.registers x.machine.labels x.operands = e at hstores
    cases e with
    | store name v =>
      have hname : name ≠ r := by
        rintro rfl
        exact h hstores
      exact Table.get?_put_of_ne _ v hname
    | pass | emit | goto | stop | fail => rfl
  | refuse | warn | skip | start | collect => rfl

theorem not_mem_operands_after {choice : Choice} (h : .register r ∉ x.operands)
    (hcollect : choice ≠ .collect (.register r)) : .register r ∉ (x.after choice).operands := by
  cases choice with
  | collect v =>
    intro hmem
    rcases List.mem_append.mp hmem with hmem | hmem
    · exact h hmem
    · exact hcollect (by rw [List.mem_singleton.mp hmem])
  | start | finish => exact List.not_mem_nil
  | refuse | warn | skip => exact h

theorem Avoids.step (h : x.Avoids r) (hregister : .register r ∉ program)
    (hvalue : .value (.register r) ∉ program) (hstep : x.step program = .next next) :
    next.Avoids r ∧ next.machine.registers.get? r = x.machine.registers.get? r := by
  have hstandard := (move_of_step h.toStandard hstep).1
  obtain ⟨-, token, htoken, htake⟩ := exists_token_of_step hstep
  have hmem : token ∈ program := Array.mem_of_getElem? htoken
  have hcollect : x.choose token ≠ .collect (.register r) := by
    intro hchoose
    rcases eq_of_choose_eq_collect hchoose with rfl | ⟨name, rfl, hname⟩
    · exact hvalue hmem
    · cases hname
      exact hregister hmem
  rw [take_eq_after h.pending] at htake
  cases htake
  exact ⟨⟨hstandard, not_mem_operands_after h.operands hcollect⟩, get?_after h.operands⟩

/-- Two runs at the same token, of machines that differ in one register only. -/
structure AlikeBut (r : String) (x y : Run) : Prop where
  machine : x.machine.AlikeBut r y.machine
  pending : y.pending = x.pending
  operands : y.operands = x.operands

namespace AlikeBut

variable (h : AlikeBut r x y)

include h

theorem choose_eq (token : Token) : y.choose token = x.choose token := by
  have hinstructions : y.machine.instructions = x.machine.instructions := by
    rw [h.machine.rest]
  cases token <;> simp only [choose, h.pending, hinstructions, h.machine.has_eq]

theorem avoids (hx : x.Avoids r) : y.Avoids r := by
  refine ⟨⟨?_, ?_⟩, ?_⟩
  · rw [h.machine.rest]
    exact hx.machine
  · rw [h.pending]
    exact hx.pending
  · rw [h.operands]
    exact hx.operands

theorem after (hx : x.Avoids r) (choice : Choice) : AlikeBut r (x.after choice) (y.after choice) := by
  have hresolve (v : Value) (hv : v ∈ x.operands) :
      v.resolve y.machine.registers = v.resolve x.machine.registers :=
    h.machine.resolve_eq fun he => hx.operands (he ▸ hv)
  have hready : x.ready.AlikeBut r y.ready := by
    rw [ready, ready, h.machine.rest]
    exact ⟨h.machine.names, h.machine.others, rfl⟩
  obtain ⟨⟨hnames, hothers, hrest⟩, hpending, hoperands⟩ := h
  cases choice with
  | finish i =>
    have hlabels : y.machine.labels = x.machine.labels := by rw [hrest]
    rw [Run.after, Run.after, hlabels, hoperands, i.effect_congr hresolve]
    exact ⟨(hready.apply _).continued, rfl, rfl⟩
  | refuse | warn | skip | start | collect =>
    obtain ⟨m, pending, operands⟩ := y
    cases hpending
    cases hoperands
    obtain ⟨table, rfl⟩ : ∃ table, m = { x.machine with registers := table } := ⟨_, hrest⟩
    exact ⟨⟨hnames, hothers, rfl⟩, rfl, rfl⟩

theorem step (hx : x.Avoids r) :
    (∃ x' y', x.step program = .next x' ∧ y.step program = .next y' ∧ AlikeBut r x' y') ∨
      x.step program = .ended x.machine (.ok ()) ∧ y.step program = .ended y.machine (.ok ()) := by
  have hcursor : y.machine.cursor = x.machine.cursor := by rw [h.machine.rest]
  have hhalt : y.machine.halted = x.machine.halted := by rw [h.machine.rest]
  cases hhalted : x.machine.halted with
  | true => exact .inr ⟨step_of_halted hhalted, step_of_halted (hhalt.trans hhalted)⟩
  | false =>
    cases htoken : program[x.machine.cursor]? with
    | none =>
      right
      rw [Run.step, Run.step, hcursor, htoken]
      exact ⟨rfl, rfl⟩
    | some token =>
      left
      refine ⟨x.after (x.choose token), y.after (x.choose token), ?_, ?_, h.after hx _⟩
      · rw [step_of_running hhalted htoken, take_eq_after hx.pending]
      · rw [step_of_running (hhalt.trans hhalted) (hcursor ▸ htoken),
          take_eq_after (h.avoids hx).pending, h.choose_eq]

end AlikeBut

theorem rel_upTo_of_unmentioned {a b : Machine} (hregister : .register r ∉ program)
    (hvalue : .value (.register r) ∉ program) (h : AlikeBut r x y) (hx : x.Avoids r)
    (hkept : x.machine.registers.get? r = a.registers.get? r)
    (hkeptToo : y.machine.registers.get? r = b.registers.get? r) (fuel : Nat) :
    Option.Rel (Machine.AnswersBut r a b) (upTo program fuel x) (upTo program fuel y) := by
  induction fuel generalizing x y with
  | zero => exact .none
  | succ fuel ih =>
    rw [upTo, upTo]
    rcases h.step hx with ⟨x', y', hnext, hnext', h'⟩ | ⟨hended, hended'⟩
    · obtain ⟨hx', hsame⟩ := hx.step hregister hvalue hnext
      obtain ⟨-, hsame'⟩ := (h.avoids hx).step hregister hvalue hnext'
      rw [hnext, hnext']
      exact ih h' hx' (hsame.trans hkept) (hsame'.trans hkeptToo)
    · rw [hended, hended']
      exact .some ⟨rfl, h.machine, hkept, hkeptToo⟩

end Run

namespace Machine

/-- Two machines that differ in a register which no token mentions run the tokens alike: both or neither
come to an end, and at the end they again differ in that register only, which has kept its value. -/
theorem run_unmentioned {r : String} {a b : Machine} {tokens : List Token}
    (hstandard : a.IsStandard) (hregister : .register r ∉ tokens)
    (hvalue : .value (.register r) ∉ tokens) (halike : a.AlikeBut r b) (fuel : Nat) :
    Option.Rel (AnswersBut r a b) (a.run fuel tokens) (b.run fuel tokens) := by
  have hstart : Run.AlikeBut r a.start b.start := by
    rw [start, start, halike.rest]
    exact ⟨⟨halike.names, halike.others, rfl⟩, rfl, rfl⟩
  have havoids : a.start.Avoids r := ⟨standard_start hstandard, List.not_mem_nil⟩
  rw [← List.mem_toArray] at hregister hvalue
  exact Run.rel_upTo_of_unmentioned (a := a) (b := b) hregister hvalue hstart havoids rfl rfl fuel

/-- One register refers to another, which the program below does not mention. -/
def pointing (v : Value) : Machine :=
  { standard with
    registers := [("p", .register "r"), ("n", .int 2), ("r", v)]
    labels := [("top", 0)] }

/-- The reference is printed, copied and at last taken for a label. -/
def followingOnce : List Token :=
  [.instruction "PRINT", .register "p", .statementEnd,
   .instruction "SUB", .register "n", .value (.int 1), .statementEnd,
   .instruction "JNZ", .register "n", .value (.label "top"), .statementEnd,
   .instruction "SET", .register "n", .register "p", .statementEnd,
   .instruction "JMP", .register "n", .statementEnd]

theorem run_unmentioned_pointing :
    .register "r" ∉ followingOnce ∧ .value (.register "r") ∉ followingOnce ∧
    ∃ final, (pointing (.label "top")).run 50 followingOnce = some (final, .ok ()) ∧
      final.registers.get? "r" = some (.label "top") ∧
      final.registers.get? "n" = some (.register "r") ∧
      final.output = #["[r]", "[r]"] ∧ final.diagnostics = #[.invalidLabel (.register "n")] := by
  have hregister : .register "r" ∉ followingOnce := by decide
  have hvalue : .value (.register "r") ∉ followingOnce := by decide
  refine ⟨hregister, hvalue, ?_⟩
  have halike : (pointing (.int 5)).AlikeBut "r" (pointing (.label "top")) := by
    refine ⟨rfl, fun name hname => ?_, rfl⟩
    simp [pointing, Table.get?, hname.symm]
  have hstate : ((pointing (.int 5)).run 50 followingOnce).map (fun answer =>
      (answer.1.registers.get? "n", answer.1.output, answer.1.diagnostics, answer.2.toBool)) =
        some (some (.register "r"), #["[r]", "[r]"], #[.invalidLabel (.register "n")], true) := by
    decide +kernel
  obtain ⟨⟨seen, result⟩, hseen, hstate⟩ := Option.map_eq_some_iff.mp hstate
  simp only [Prod.mk.injEq] at hstate
  obtain ⟨hn, houtput, hdiagnostics, hresult⟩ := hstate
  have hstandard : (pointing (.int 5)).IsStandard := fun _ => rfl
  have hrel := run_unmentioned hstandard hregister hvalue halike 50
  rw [hseen] at hrel
  obtain ⟨⟨final, answer⟩, hfinal, hanswers⟩ := exists_of_rel_some hrel
  cases result with
  | error fault => cases hresult
  | ok done =>
    cases hanswers.result
    refine ⟨final, hfinal, hanswers.keptToo, ?_, ?_, ?_⟩
    · exact (hanswers.machine.others "n" (by decide)).trans hn
    · exact (congrArg Machine.output hanswers.machine.rest).trans houtput
    · exact (congrArg Machine.diagnostics hanswers.machine.rest).trans hdiagnostics

end Machine

end LineAssembly
