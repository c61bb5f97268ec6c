import LineAssembly.Machine.Execute
import LineAssembly.Proofs.Table

/-! # Inserting registers and instructions

A table takes an instruction at its end, or refuses it because the name is there already. Main statement:
instructions inserted together are taken up to the first one whose name is not new. A frozen machine
takes nothing, and what is asked of it is a misuse. The one fault of a declaration that is none is about
bounds that a message cannot show.
-/

set_option autoImplicit false

namespace LineAssembly

/-- A fault about the configuration of a machine, not about a program. -/
def Fault.isMisuse : Fault → Bool
  | .frozen | .registerName _ | .registerUnnamed | .registerExists _ | .instructionUnnamed
  | .instructionWithoutBody _ | .negativeLeast _ | .mostBelowLeast .. | .instructionExists _ => true
  | .instructionUnknown _ | .argumentMissing | .nestedTooDeep | .quotedArgument .. | .literal _
  | .refused _ | .labelInsideStatement .. | .integerUnwritable => false

/-- An action that inserts a register or at least one instruction. -/
def Action.inserts : Action → Bool
  | .insertRegister _ | .insertInstruction _ | .insertStandard => true
  | .insertInstructions ds => !ds.isEmpty
  | _ => false

namespace Declaration

/-- A declaration in order up to its lower bound. -/
structure Proper (d : Declaration Script) : Prop where
  name : d.name ≠ ""
  body : d.body.isSome = true
  least : 0 ≤ d.least

structure Sound (d : Declaration Script) : Prop extends Proper d where
  most : ∀ most ∈ d.most, d.least ≤ most

/-- The upper bound is below the lower one, and a message cannot show both. -/
structure Unspeakable (d : Declaration Script) : Prop extends Proper d where
  most : ∃ most ∈ d.most, most < d.least ∧ ¬ (Numeral.IsWritable most ∧ Numeral.IsWritable d.least)

/-- The first of the declarations that is not sound is unspeakable. -/
inductive Stalls : List (Declaration Script) → Prop where
  | here {d : Declaration Script} (rest : List (Declaration Script)) (h : d.Unspeakable) :
    Stalls (d :: rest)
  | later {d : Declaration Script} {rest : List (Declaration Script)} (h : d.Sound)
    (stalls : Stalls rest) : Stalls (d :: rest)

end Declaration

/-- An action that declares instructions and fails at bounds that a message cannot show. -/
def Action.Unspeakable : Action → Prop
  | .insertInstruction d => d.Unspeakable
  | .insertInstructions ds => Declaration.Stalls ds
  | _ => False

namespace Instruction

/-- Of the instructions that share a name only the first, in the order of the whole. -/
def firsts : List Instruction → List Instruction
  | [] => []
  | i :: rest => i :: (firsts rest).filter (·.name ≠ i.name)

theorem mem_of_mem_firsts {is : List Instruction} {i : Instruction} (h : i ∈ firsts is) : i ∈ is := by
  induction is with
  | nil => cases h
  | cons first rest ih =>
    rcases List.mem_cons.mp h with rfl | h
    · exact List.mem_cons_self
    · exact List.mem_cons_of_mem first (ih (List.mem_of_mem_filter h))

theorem nodup_firsts (is : List Instruction) : ((firsts is).map name).Nodup := by
  induction is with
  | nil => exact List.nodup_nil
  | cons first rest ih =>
    refine List.nodup_cons.mpr ⟨?_, ih.sublist (List.filter_sublist.map name)⟩
    intro hmem
    obtain ⟨i, hi, hsame⟩ := List.mem_map.mp hmem
    exact of_decide_eq_true (List.mem_filter.mp hi).2 hsame

theorem exists_ofDeclaration_iff {d : Declaration Script} :
    (∃ i, ofDeclaration d = .ok i) ↔ d.Sound := by
  constructor
  · rintro ⟨i, h⟩
    revert h
    fun_cases ofDeclaration d <;> rintro ⟨⟩
    case case4 hname steps hbody hleast hmost =>
      refine ⟨⟨hname, Option.isSome_of_eq_some hbody, Int.not_lt.mp hleast⟩, ?_⟩
      rw [hmost]
      nofun
    case case7 hname steps hbody hleast most hmost hbetween =>
      refine ⟨⟨hname, Option.isSome_of_eq_some hbody, Int.not_lt.mp hleast⟩, ?_⟩
      rw [hmost]
      rintro _ ⟨⟩
      exact Int.not_lt.mp hbetween
  · intro h
    obtain ⟨steps, hbody⟩ := Option.isSome_iff_exists.mp h.body
    rw [ofDeclaration, if_neg h.name, hbody]
    simp only [if_neg (Int.not_lt.mpr h.least)]
    split
    · exact ⟨_, rfl⟩
    · rename_i most hmost
      rw [dif_neg (Int.not_lt.mpr (h.most most hmost))]
      exact ⟨_, rfl⟩

theorem ofDeclaration_unwritable_iff {d : Declaration Script} :
    ofDeclaration d = .error .integerUnwritable ↔ d.Unspeakable := by
  constructor
  · fun_cases ofDeclaration d <;> rintro ⟨⟩
    case case6 hname steps hbody hleast most hmost hbelow hlong =>
      exact ⟨⟨hname, Option.isSome_of_eq_some hbody, Int.not_lt.mp hleast⟩,
        most, hmost, hbelow, hlong⟩
  · intro h
    obtain ⟨most, hmost, hbelow, hlong⟩ := h.most
    obtain ⟨steps, hbody⟩ := Option.isSome_iff_exists.mp h.body
    rw [ofDeclaration, if_neg h.name, hbody, Option.mem_def.mp hmost]
    simp only [if_neg (Int.not_lt.mpr h.least), dif_pos hbelow, if_neg hlong]

theorem isMisuse_of_ofDeclaration {d : Declaration Script} {fault : Fault}
    (h : ofDeclaration d = .error fault) (hne : fault ≠ .integerUnwritable) :
    fault.isMisuse = true := by
  revert h
  fun_cases ofDeclaration d <;> rintro ⟨⟩
  case case6 => exact absurd rfl hne
  all_goals rfl

theorem ofDeclarations_cons_error_iff {d : Declaration Script} {rest : List (Declaration Script)}
    {fault : Fault} : ofDeclarations (d :: rest) = .error fault ↔
      ofDeclaration d = .error fault ∨
        (∃ i, ofDeclaration d = .ok i) ∧ ofDeclarations rest = .error fault := by
  rw [ofDeclarations]
  cases ofDeclaration d with
  | error fault => simp
  | ok i => cases ofDeclarations rest <;> simp

theorem ofDeclarations_unwritable_iff {ds : List (Declaration Script)} :
    ofDeclarations ds = .error .integerUnwritable ↔ Declaration.Stalls ds := by
  induction ds with
  | nil => exact ⟨nofun, nofun⟩
  | cons d rest ih =>
    rw [ofDeclarations_cons_error_iff, ofDeclaration_unwritable_iff, exists_ofDeclaration_iff, ih]
    constructor
    · rintro (hunspeakable | ⟨hsound, hstalls⟩)
      · exact .here rest hunspeakable
      · exact .later hsound hstalls
    · rintro (⟨-, hunspeakable⟩ | ⟨hsound, hstalls⟩)
      · exact .inl hunspeakable
      · exact .inr ⟨hsound, hstalls⟩

theorem isMisuse_of_ofDeclarations {ds : List (Declaration Script)} {fault : Fault}
    (h : ofDeclarations ds = .error fault) (hne : fault ≠ .integerUnwritable) :
    fault.isMisuse = true := by
  induction ds with
  | nil => cases h
  | cons d rest ih =>
    rcases ofDeclarations_cons_error_iff.mp h with hd | ⟨-, hrest⟩
    · exact isMisuse_of_ofDeclaration hd hne
    · exact ih hrest

theorem length_ofDeclarations {ds : List (Declaration Script)} {is : List Instruction}
    (h : ofDeclarations ds = .ok is) : is.length = ds.length := by
  induction ds generalizing is with
  | nil =>
    cases h
    rfl
  | cons d rest ih =>
    rw [ofDeclarations] at h
    split at h
    · cases h
    · split at h
      · cases h
      · cases h
        exact congrArg (· + 1) (ih ‹_›)

end Instruction

namespace InstructionSet

/-- Each instruction under its own name. -/
def ofList (is : List Instruction) : InstructionSet :=
  is.map fun i => (i.name, i)

theorem names_append_ofList (set : InstructionSet) (is : List Instruction) :
    Table.names (set ++ ofList is) = set.names ++ is.map Instruction.name := by
  simp [Table.names, ofList]

theorem instructions_ofList (is : List Instruction) : (ofList is).instructions = is := by
  rw [instructions, ofList, List.map_map]
  exact List.map_id is

variable {set : InstructionSet} {i : Instruction}

theorem add_of_mem (h : i.name ∈ set.names) : set.add i = .error (.instructionExists i.name) := by
  rw [add, if_pos ((Table.has_iff_mem_names _ _).mpr h)]

theorem add_of_not_mem (h : i.name ∉ set.names) : set.add i = .ok (set ++ ofList [i]) := by
  rw [add, if_neg (mt (Table.has_iff_mem_names _ _).mp h), Table.put_of_not_mem h]
  rfl

/-! ## A set of its own -/

/-- The set after an offer: a refused instruction leaves it as it was. -/
def offer (set : InstructionSet) (i : Instruction) : InstructionSet :=
  match set.add i with
  | .error _ => set
  | .ok later => later

/-- An instruction goes to the end of a set, or its name is there and the set stays as it was. -/
def Adds (set : InstructionSet) (i : Instruction) : Prop :=
  (i.name ∉ set.names ∧ set.add i = .ok (set ++ ofList [i]) ∧ set.offer i = set ++ ofList [i]) ∨
    i.name ∈ set.names ∧ set.add i = .error (.instructionExists i.name) ∧ set.offer i = set

theorem adds (set : InstructionSet) (i : Instruction) : set.Adds i := by
  by_cases h : i.name ∈ set.names
  · exact .inr ⟨h, add_of_mem h, by rw [offer, add_of_mem h]⟩
  · exact .inl ⟨h, add_of_not_mem h, by rw [offer, add_of_not_mem h]⟩

theorem foldl_offer (set : InstructionSet) (is : List Instruction) :
    is.foldl offer set =
      set ++ ofList ((Instruction.firsts is).filter (·.name ∉ set.names)) := by
  induction is generalizing set with
  | nil => simp [Instruction.firsts, ofList]
  | cons i rest ih =>
    rw [List.foldl_cons, ih, Instruction.firsts]
    obtain ⟨h, -, hoffer⟩ | ⟨h, -, hoffer⟩ := set.adds i
    · rw [hoffer, List.filter_cons_of_pos (by simpa using h), List.filter_filter, List.append_assoc,
        names_append_ofList]
      refine congrArg (fun is => set ++ ofList (i :: is)) (List.filter_congr fun j _ => ?_)
      simp
    · rw [hoffer, List.filter_cons_of_neg (by simpa using h), List.filter_filter]
      refine congrArg (set ++ ofList ·) (List.filter_congr fun j _ => ?_)
      have hother : j.name ∉ set.names → j.name ≠ i.name := fun hj he => hj (he ▸ h)
      simpa using hother

/-- A set that was built by offers holds the first instruction of each name, in the order of the offers. -/
theorem foldl_offer_nil (is : List Instruction) : is.foldl offer [] = ofList (Instruction.firsts is) := by
  rw [foldl_offer]
  simp [Table.names]

/-! ## Instructions inserted together -/

/-- The names are new to a table and pairwise distinct. -/
structure Fresh (set : InstructionSet) (is : List Instruction) : Prop where
  distinct : (is.map Instruction.name).Nodup
  new : ∀ i ∈ is, i.name ∉ set.names

/-- The longest part of a list, from its beginning, whose names are new to a table and distinct. -/
structure LongestFresh (set : InstructionSet) (is before : List Instruction) : Prop where
  fresh : set.Fresh before
  initial : before <+: is
  longest : ∀ other, other <+: is → set.Fresh other → other <+: before

/-- How the insertion of a list ends if these are left over. -/
def leftOver : List Instruction → Except Fault Unit
  | [] => .ok ()
  | i :: _ => .error (.instructionExists i.name)

theorem fresh_nil : set.Fresh [] :=
  ⟨List.nodup_nil, nofun⟩

theorem fresh_cons_iff {rest : List Instruction} :
    set.Fresh (i :: rest) ↔ i.name ∉ set.names ∧ Fresh (set ++ ofList [i]) rest := by
  have hnames : Table.names (set ++ ofList [i]) = set.names ++ [i.name] := names_append_ofList set [i]
  constructor
  · rintro ⟨hdistinct, hnew⟩
    obtain ⟨hi, hrest⟩ := List.nodup_cons.mp hdistinct
    refine ⟨hnew i List.mem_cons_self, hrest, fun j hj => ?_⟩
    rw [hnames, List.mem_append, List.mem_singleton]
    rintro (hold | hsame)
    · exact hnew j (List.mem_cons_of_mem i hj) hold
    · exact hi (List.mem_map.mpr ⟨j, hj, hsame⟩)
  · rintro ⟨hi, hdistinct, hnew⟩
    simp only [hnames, List.mem_append, List.mem_singleton, not_or] at hnew
    refine ⟨List.nodup_cons.mpr ⟨?_, hdistinct⟩,
      List.forall_mem_cons.mpr ⟨hi, fun j hj => (hnew j hj).1⟩⟩
    rintro hmem
    obtain ⟨j, hj, hsame⟩ := List.mem_map.mp hmem
    exact (hnew j hj).2 hsame

theorem longestFresh_nil {is : List Instruction} (h : ∀ i ∈ is.head?, i.name ∈ set.names) :
    set.LongestFresh is [] := by
  refine ⟨fresh_nil, List.nil_prefix, fun other hother hfresh => ?_⟩
  cases other with
  | nil => exact List.prefix_rfl
  | cons i rest =>
    obtain ⟨tail, rfl⟩ := hother
    exact absurd (h i rfl) (hfresh.new i List.mem_cons_self)

theorem LongestFresh.cons {rest before : List Instruction} (hi : i.name ∉ set.names)
    (h : LongestFresh (set ++ ofList [i]) rest before) : set.LongestFresh (i :: rest) (i :: before) := by
  refine ⟨fresh_cons_iff.mpr ⟨hi, h.fresh⟩, List.prefix_cons_inj i |>.mpr h.initial, ?_⟩
  intro other hother hfresh
  cases other with
  | nil => exact List.nil_prefix
  | cons j others =>
    obtain ⟨rfl, hothers⟩ := List.cons_prefix_cons.mp hother
    exact List.cons_prefix_cons.mpr ⟨rfl, h.longest others hothers (fresh_cons_iff.mp hfresh).2⟩

end InstructionSet

namespace Machine

open InstructionSet (Fresh LongestFresh ofList leftOver)

variable {m : Machine}

/-- The machine with further instructions behind its own. -/
def extended (m : Machine) (is : List Instruction) : Machine :=
  { m with instructions := m.instructions ++ ofList is }

theorem insertRegister_eq_ok_iff {name : String} {later : Machine} :
    m.insertRegister name = .ok later ↔
      m.frozen = false ∧ Text.isName name.toList = true ∧ m.registers.has name = false ∧
        later = { m with registers := m.registers.put name .empty } := by
  rw [insertRegister]
  cases m.frozen <;> cases Text.isName name.toList <;> cases m.registers.has name <;> simp [eq_comm]

theorem insertInstruction_of_mem {i : Instruction} (hthawed : m.frozen = false)
    (h : i.name ∈ m.instructions.names) :
    m.insertInstruction i = .error (.instructionExists i.name) := by
  rw [insertInstruction, if_neg (ne_true_of_eq_false hthawed), InstructionSet.add_of_mem h]

theorem insertInstruction_of_not_mem {i : Instruction} (hthawed : m.frozen = false)
    (h : i.name ∉ m.instructions.names) : m.insertInstruction i = .ok (m.extended [i]) := by
  rw [insertInstruction, if_neg (ne_true_of_eq_false hthawed), InstructionSet.add_of_not_mem h]
  rfl

/-- The instructions are taken as far as their names are new and distinct. -/
theorem exists_insertInstructions (hthawed : m.frozen = false) (is : List Instruction) :
    ∃ before after, is = before ++ after ∧ LongestFresh m.instructions is before ∧
      m.insertInstructions is = (m.extended before, leftOver after) := by
  induction is generalizing m with
  | nil =>
    refine ⟨[], [], rfl, InstructionSet.longestFresh_nil nofun, ?_⟩
    simp [insertInstructions, extended, ofList, leftOver]
  | cons i rest ih =>
    by_cases hi : i.name ∈ m.instructions.names
    · refine ⟨[], i :: rest, rfl, InstructionSet.longestFresh_nil (by simpa using hi), ?_⟩
      rw [insertInstructions, insertInstruction_of_mem hthawed hi]
      simp [extended, ofList, leftOver]
    · obtain ⟨before, after, rfl, hlongest, hinsert⟩ := ih (m := m.extended [i]) hthawed
      refine ⟨i :: before, after, rfl, hlongest.cons hi, ?_⟩
      rw [insertInstructions, insertInstruction_of_not_mem hthawed hi]
      simp only [hinsert]
      simp [extended, ofList]

theorem insertInstructions_of_fresh (hthawed : m.frozen = false) {is : List Instruction}
    (h : Fresh m.instructions is) : m.insertInstructions is = (m.extended is, .ok ()) := by
  obtain ⟨before, after, hsplit, hlongest, hinsert⟩ := exists_insertInstructions hthawed is
  have hall : is = before :=
    (hlongest.longest is List.prefix_rfl h).eq_of_length_le hlongest.initial.length_le
  have hnone : after = [] := by
    rw [← hall] at hsplit
    exact List.self_eq_append_right.mp hsplit
  rw [hinsert, hnone, hall]
  rfl

/-- A set that was built by offers is inserted as a whole and in the order of the offers. -/
theorem insertInstructions_offered (hthawed : m.frozen = false) {offered : List Instruction}
    (h : ∀ i ∈ offered, i.name ∉ m.instructions.names) :
    m.insertInstructions (offered.foldl InstructionSet.offer []).instructions =
      (m.extended (Instruction.firsts offered), .ok ()) := by
  rw [InstructionSet.foldl_offer_nil, InstructionSet.instructions_ofList]
  refine insertInstructions_of_fresh hthawed ⟨Instruction.nodup_firsts offered, fun i hi => ?_⟩
  exact h i (Instruction.mem_of_mem_firsts hi)

/-! ## Refusals -/

theorem insertRegister_of_frozen (hfrozen : m.frozen = true) (name : String) :
    m.insertRegister name = .error .frozen := by
  rw [insertRegister, if_pos hfrozen]

theorem insertInstructions_of_frozen (hfrozen : m.frozen = true) (i : Instruction)
    (rest : List Instruction) : m.insertInstructions (i :: rest) = (m, .error .frozen) := by
  rw [insertInstructions, insertInstruction, if_pos hfrozen]

theorem answering_of_frozen (hfrozen : m.frozen = true) (i : Instruction) (rest : List Instruction)
    {α : Type} (answer : Unit → α) :
    answering answer (m.insertInstructions (i :: rest)) = (m, .error .frozen) := by
  rw [insertInstructions_of_frozen hfrozen]
  rfl

variable (call : Call) (arguments : List Value)

/-- A declaration is checked before the machine is asked, so its own fault may come first. -/
theorem perform_of_frozen (hfrozen : m.frozen = true) {action : Action} (h : action.inserts = true) :
    ∃ fault, m.perform call arguments action = (m, .error fault) ∧
      (fault = .integerUnwritable ↔ action.Unspeakable) ∧
      (¬ action.Unspeakable → fault.isMisuse = true) := by
  cases action with
  | insertRegister name =>
    refine ⟨.frozen, ?_, ⟨nofun, nofun⟩, fun _ => rfl⟩
    rw [perform, insertRegister_of_frozen hfrozen]
  | insertInstruction d =>
    have hunspeakable := @Instruction.ofDeclaration_unwritable_iff d
    rw [perform]
    cases hd : Instruction.ofDeclaration d with
    | error fault =>
      rw [hd, Except.error.injEq] at hunspeakable
      refine ⟨fault, rfl, hunspeakable, fun hno => ?_⟩
      exact Instruction.isMisuse_of_ofDeclaration hd (mt hunspeakable.mp hno)
    | ok i =>
      rw [hd] at hunspeakable
      refine ⟨.frozen, answering_of_frozen hfrozen i [] _, iff_of_false nofun ?_, fun _ => rfl⟩
      exact mt hunspeakable.mpr nofun
  | insertInstructions ds =>
    have hunspeakable := @Instruction.ofDeclarations_unwritable_iff ds
    rw [perform]
    cases hds : Instruction.ofDeclarations ds with
    | error fault =>
      rw [hds, Except.error.injEq] at hunspeakable
      refine ⟨fault, rfl, hunspeakable, fun hno => ?_⟩
      exact Instruction.isMisuse_of_ofDeclarations hds (mt hunspeakable.mp hno)
    | ok is =>
      rw [hds] at hunspeakable
      cases is with
      | nil =>
        have hlength := Instruction.length_ofDeclarations hds
        cases ds with
        | nil => cases h
        | cons d rest => cases hlength
      | cons i rest =>
        refine ⟨.frozen, answering_of_frozen hfrozen i rest _, iff_of_false nofun ?_, fun _ => rfl⟩
        exact mt hunspeakable.mpr nofun
  | insertStandard =>
    refine ⟨.frozen, ?_, ⟨nofun, nofun⟩, fun _ => rfl⟩
    rw [perform, Instruction.standard, answering_of_frozen hfrozen]
  | _ => cases h

theorem perform_insertRegister_failed {name : String} {fault : Fault}
    (h : (m.perform call arguments (.insertRegister name)).2 = .error fault) :
    (m.perform call arguments (.insertRegister name)).1 = m := by
  rw [perform] at h ⊢
  cases hinsert : m.insertRegister name with
  | error fault => rfl
  | ok later =>
    rw [hinsert] at h
    cases h

theorem perform_insertInstruction_failed {d : Declaration Script} {fault : Fault}
    (h : (m.perform call arguments (.insertInstruction d)).2 = .error fault) :
    (m.perform call arguments (.insertInstruction d)).1 = m := by
  rw [perform] at h ⊢
  cases hd : Instruction.ofDeclaration d with
  | error fault => rfl
  | ok i =>
    rw [hd] at h
    simp only [insertInstructions] at h ⊢
    cases hinsert : m.insertInstruction i with
    | error fault => rfl
    | ok later =>
      rw [hinsert] at h
      cases h

end Machine

end LineAssembly
