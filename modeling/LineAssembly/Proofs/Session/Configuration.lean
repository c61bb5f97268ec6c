import LineAssembly.Proofs.Numeral
import LineAssembly.Proofs.Session.Invariant

/-! # The configuration only grows, and only before the first program

The instructions of a machine and the names of its registers are its configuration. Main statement: in
any use of a machine, by its host, by the scripts of its instructions or by a run, an earlier configuration
is the beginning of every later one, no name is there twice, and from the first reading or run on nothing
is added. An attempt is then a misuse, unless it declares bounds that the message about them cannot show.
A host that assigns registers directly could declare one that way, so it does not do that.
-/

set_option autoImplicit false

namespace LineAssembly

/-- No name is there twice, and an instruction stands under its own name. -/
structure InstructionSet.Orderly (set : InstructionSet) : Prop where
  distinct : set.names.Nodup
  named : ∀ b ∈ set, b.2.name = b.1

theorem InstructionSet.Orderly.put {set : InstructionSet} (h : set.Orderly) (i : Instruction) :
    InstructionSet.Orderly (set.put i.name i) where
  distinct := Table.nodup_names_put h.distinct i.name i
  named b hb := by
    rcases Table.mem_put hb with hb | rfl
    · exact h.named b hb
    · rfl

namespace Machine

open InstructionSet (LongestFresh leftOver)

/-- The later machine is frozen with the configuration of the earlier one. -/
structure Seals (m later : Machine) : Prop where
  frozen : later.frozen = true
  registers : later.registers.names = m.registers.names
  instructions : later.instructions = m.instructions

/-- What was inserted stays, with its place and what it is. -/
structure Grows (m later : Machine) : Prop where
  registers : m.registers.names <+: later.registers.names
  instructions : m.instructions <+: later.instructions
  seals : m.frozen = true → m.Seals later

variable {m later last : Machine}

theorem Seals.trans (h : m.Seals later) (h' : later.Grows last) : m.Seals last where
  frozen := (h'.seals h.frozen).frozen
  registers := (h'.seals h.frozen).registers.trans h.registers
  instructions := (h'.seals h.frozen).instructions.trans h.instructions

theorem Grows.of_same (hregisters : later.registers.names = m.registers.names)
    (hinstructions : later.instructions = m.instructions)
    (hfrozen : m.frozen = true → later.frozen = true) :
    m.Grows later where
  registers := hregisters ▸ List.prefix_rfl
  instructions := hinstructions ▸ List.prefix_rfl
  seals h := ⟨hfrozen h, hregisters, hinstructions⟩

theorem Grows.trans (h : m.Grows later) (h' : later.Grows last) : m.Grows last where
  registers := h.registers.trans h'.registers
  instructions := h.instructions.trans h'.instructions
  seals hfrozen := (h.seals hfrozen).trans h'

theorem Deed.grows (h : Deed Action.Indirect m later) : m.Grows later := by
  cases h with
  | declare name thawed valid new =>
    have hnew : name ∉ m.registers.names :=
      mt (Table.has_iff_mem_names _ _).mpr (ne_true_of_eq_false new)
    refine ⟨?_, List.prefix_rfl, fun hfrozen => ?_⟩
    · rw [Table.names_put, if_neg hnew]
      exact List.prefix_append _ _
    · exact absurd hfrozen (ne_true_of_eq_false thawed)
  | install i thawed new within =>
    have hnew : i.name ∉ m.instructions.names :=
      mt (Table.has_iff_mem_names _ _).mpr (ne_true_of_eq_false new)
    refine ⟨List.prefix_rfl, ?_, fun hfrozen => ?_⟩
    · rw [Table.put_of_not_mem hnew]
      exact List.prefix_append _ _
    · exact absurd hfrozen (ne_true_of_eq_false thawed)
  | @store name v found declared resolved =>
    refine .of_same ?_ rfl id
    rw [Machine.assign, Table.names_put, if_pos ((Table.has_iff_mem_names _ _).mp declared)]
  | assign name o v permitted => exact absurd (.assign name o) permitted
  | reset permitted => exact .of_same (Table.names_fill _ _) rfl id
  | report d halting => cases halting <;> exact .of_same rfl rfl id
  | bindLabels => exact .of_same rfl rfl fun _ => rfl
  | hold | log | emit | halt | moveTo => exact .of_same rfl rfl id

theorem Change.grows (h : Change Action.Indirect m later) : m.Grows later := by
  cases h with
  | deed h => exact h.grows
  | start => exact .of_same rfl rfl fun _ => rfl
  | settle | advance => exact .of_same rfl rfl id

theorem Changes.grows (h : Changes Action.Indirect m later) : m.Grows later := by
  induction h with
  | refl => exact .of_same rfl rfl id
  | tail _ last ih => exact ih.trans last.grows

theorem Deed.orderly (h : Deed Action.Indirect m later) (hm : m.instructions.Orderly) :
    later.instructions.Orderly := by
  cases h with
  | install i thawed new within => exact hm.put i
  | report d halting => cases halting <;> exact hm
  | declare | bindLabels | hold | log | emit | halt | reset | store | assign | moveTo => exact hm

theorem Change.orderly (h : Change Action.Indirect m later) (hm : m.instructions.Orderly) :
    later.instructions.Orderly := by
  cases h with
  | deed h => exact h.orderly hm
  | start | settle | advance => exact hm

theorem Changes.orderly (h : Changes Action.Indirect m later) (hm : m.instructions.Orderly) :
    later.instructions.Orderly := by
  induction h with
  | refl => exact hm
  | tail _ last ih => exact last.orderly ih

theorem seals_scan (m : Machine) (source : String) : m.Seals (m.scan source).1 := by
  obtain ⟨diagnostics, journal, errorCount, hscan⟩ := m.exists_scan source
  rw [hscan]
  exact ⟨rfl, rfl, rfl⟩

theorem seals_load (m : Machine) (source : String) : m.Seals (m.load source).1 := by
  have hscan : m.Seals (m.scan source).1 := m.seals_scan source
  rw [load]
  generalize m.scan source = result at hscan ⊢
  rcases result with ⟨scanned, fault | tokens⟩ <;>
    exact ⟨hscan.frozen, hscan.registers, hscan.instructions⟩

/-- A program seals the configuration, however its reading or its run ends. -/
theorem seals_serve (hm : m.Within Action.Indirect) {fuel : Nat} {q : Request} (hq : q.isProgram = true)
    {answer : Machine × Except Fault Reply} (h : m.serve fuel q = some answer) : m.Seals answer.1 := by
  have hP := Action.hereditary_indirect
  cases q with
  | act action =>
    cases action with
    | load source =>
      have hload : m.Seals (m.load source).1 := m.seals_load source
      simp only [serve, perform] at h
      generalize m.load source = result at h hload
      rcases result with ⟨loaded, fault | tokens⟩ <;> cases h <;> exact hload
    | _ => cases hq
  | run tokens =>
    obtain ⟨result, hresult, rfl⟩ := Option.map_eq_some_iff.mp h
    have hstart : m.Seals m.start.machine := ⟨rfl, rfl, rfl⟩
    have hrun := hstart.trans ((uses_run hP hm hresult).changes hP hm).grows
    rcases result with ⟨final, fault | ⟨⟩⟩ <;> exact hrun
  | interpret source =>
    obtain ⟨result, hresult, rfl⟩ := Option.map_eq_some_iff.mp h
    have hscanned := (m.deeds_scan source).changes.within hm
    have hinterpret :=
      (m.seals_scan source).trans ((uses_interpret hP hm hresult).changes hP hscanned).grows
    rcases result with ⟨final, fault | ⟨⟩⟩ <;> exact hinterpret

/-- From its first program on, a machine takes nothing more. -/
structure Closes (m : Machine) : Prop where
  scan : ∀ source, m.Seals (m.scan source).1
  start : m.Seals m.start.machine
  serve : ∀ fuel q answer, q.isProgram = true → m.serve fuel q = some answer → m.Seals answer.1
  action : m.frozen = true → ∀ call arguments action, action.inserts = true →
    ∃ fault, m.perform call arguments action = (m, .error fault) ∧
      (fault = .integerUnwritable ↔ action.Unspeakable) ∧
      (¬ action.Unspeakable → fault.isMisuse = true)
  instructions : m.frozen = true → ∀ i rest, m.insertInstructions (i :: rest) = (m, .error .frozen)

/-- What a machine takes goes to the end. A failed insertion of one thing takes nothing, and of several
instructions those before the first whose name is not new. -/
structure Takes (m : Machine) : Prop where
  register : ∀ name later, m.insertRegister name = .ok later →
    later = { m with registers := m.registers ++ [(name, .empty)] }
  registerFailed : ∀ call arguments name fault,
    (m.perform call arguments (.insertRegister name)).2 = .error fault →
      (m.perform call arguments (.insertRegister name)).1 = m
  instructionFailed : ∀ call arguments d fault,
    (m.perform call arguments (.insertInstruction d)).2 = .error fault →
      (m.perform call arguments (.insertInstruction d)).1 = m
  instructions : m.frozen = false → ∀ is, ∃ before after, is = before ++ after ∧
    LongestFresh m.instructions is before ∧ m.insertInstructions is = (m.extended before, leftOver after)
  offered : m.frozen = false → ∀ offered : List Instruction,
    (∀ i ∈ offered, i.name ∉ m.instructions.names) →
      m.insertInstructions (offered.foldl InstructionSet.offer []).instructions =
        (m.extended (Instruction.firsts offered), .ok ())

theorem closes_of_within (hm : m.Within Action.Indirect) : m.Closes where
  scan := m.seals_scan
  start := ⟨rfl, rfl, rfl⟩
  serve _ _ _ hq h := seals_serve hm hq h
  action hfrozen call arguments _ haction := perform_of_frozen call arguments hfrozen haction
  instructions := insertInstructions_of_frozen

theorem takes (m : Machine) : m.Takes where
  register name later h := by
    obtain ⟨-, -, hnew, rfl⟩ := insertRegister_eq_ok_iff.mp h
    rw [Table.put_of_not_mem (mt (Table.has_iff_mem_names _ _).mpr (ne_true_of_eq_false hnew))]
  registerFailed call arguments _ _ := perform_insertRegister_failed call arguments
  instructionFailed call arguments _ _ := perform_insertInstruction_failed call arguments
  instructions := exists_insertInstructions
  offered hthawed _ := insertInstructions_offered hthawed

/-- An instruction that declares a register when it is executed. -/
def declaring : Declaration Script :=
  ⟨"DECLARE", 0, none, some [.insertRegister "b"]⟩

/-- The third of these has a name of the standard instructions. -/
def clashing : List (Declaration Script) :=
  [⟨"X", 0, none, some []⟩, ⟨"Y", 0, none, some []⟩, ⟨"SET", 0, none, some []⟩,
    ⟨"Z", 0, none, some []⟩]

def declaringRequests : List Request :=
  [.act (.insertRegister "a"), .act (.insertRegister "a"), .act .insertStandard,
    .act (.insertInstruction declaring), .act (.insertInstructions clashing), .interpret "DECLARE"]

/-- The upper bound is below a lower one that cannot be written. -/
def overlong : Declaration Script :=
  ⟨"X", Numeral.leastUnwritable, some 0, some []⟩

end Machine

end LineAssembly
