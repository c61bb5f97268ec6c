import LineAssembly.Machine.Execute
import LineAssembly.Proofs.Numeral
import LineAssembly.Proofs.Table

/-! # Reading, writing and jumping, all or nothing

An operation on the registers or on the cursor is done in full and leaves no trace in the records, or it
is not done at all: then one message is recorded, the machine is halted, and everything else is as it was.
Main statement: each operation has one condition on its operands under which it fails, and fails under no
other. The operations call one another, so this also says that none of them reports twice and that none
stops half done. Where the message would show an integer that cannot be written there is a fault instead:
nothing is recorded, and the machine goes on as if nothing had been asked of it.
-/

set_option autoImplicit false

namespace LineAssembly

namespace Value

variable {registers : Table Value} {v : Value}

/-- A reference to a register that does not exist. -/
def IsDangling (registers : Table Value) (v : Value) : Prop :=
  ∃ name, v = .register name ∧ name ∉ registers.names

/-- A reference to a register that exists. -/
def IsDestination (registers : Table Value) (v : Value) : Prop :=
  ∃ name, v = .register name ∧ name ∈ registers.names

theorem resolve_eq_none_iff : v.resolve registers = none ↔ v.IsDangling registers := by
  constructor
  · intro h
    cases v with
    | register name =>
      refine ⟨name, rfl, fun hmem => ?_⟩
      have hhas : registers.has name = true := (Table.has_iff_mem_names registers name).mpr hmem
      rw [Table.has, ← resolve, h] at hhas
      cases hhas
    | int n | label name | empty => cases h
  · rintro ⟨name, rfl, habsent⟩
    have hhas : ¬ registers.has name = true := mt (Table.has_iff_mem_names registers name).mp habsent
    exact Option.not_isSome_iff_eq_none.mp hhas

theorem not_isDangling {found : Value} (h : v.resolve registers = some found) :
    ¬ v.IsDangling registers := by
  rw [← resolve_eq_none_iff, h]
  exact Option.some_ne_none found

/-- Whether a value is unfit is a matter of what is found behind it. -/
theorem isDangling_or_iff {found : Value} (h : v.resolve registers = some found)
    (unfit : Value → Prop) :
    (v.IsDangling registers ∨ ∃ other, v.resolve registers = some other ∧ unfit other) ↔
      unfit found := by
  constructor
  · rintro (hdangling | ⟨other, hother, hunfit⟩)
    · exact absurd hdangling (not_isDangling h)
    · rw [h] at hother
      exact Option.some.inj hother ▸ hunfit
  · intro hunfit
    exact .inr ⟨found, h, hunfit⟩

end Value

namespace Machine

/-- One message is recorded, counted and told, and the machine is halted. -/
def Aborted (m later : Machine) : Prop :=
  ∃ d : Diagnostic, later = { m with
    diagnostics := m.diagnostics.push d
    errorCount := m.errorCount + 1
    halted := true
    journal := (m.journal.push (.diagnosed d)).push (.traced (.halted m.cursor d)) }

/-- One register holds another value. -/
def Stored (m later : Machine) (name : String) (v : Value) : Prop :=
  ∃ registers : Table Value, later = { m with registers := registers } ∧
    registers.names = m.registers.names ∧ registers.get? name = some v ∧
    ∀ other, other ≠ name → registers.get? other = m.registers.get? other

/-- The cursor stands at an index, by a jump. -/
def Moved (m later : Machine) (index : Int) : Prop :=
  ∃ place : Nat, (place : Int) = index ∧ later = { m with
    cursor := place
    jumped := true
    journal := m.journal.push (.traced (.jumped m.cursor place)) }

/-- Nothing is added to the messages, and the machine is halted only if it was. -/
structure Unreported (m later : Machine) : Prop where
  diagnostics : later.diagnostics = m.diagnostics
  errorCount : later.errorCount = m.errorCount
  halted : later.halted = m.halted

theorem destination_cases (m : Machine) (target : Value) :
    (∃ name ∈ m.registers.names, target = .register name ∧ m.destination target = .ok name) ∨
      ¬ target.IsDestination m.registers ∧ ∃ d, m.destination target = .error d := by
  cases target with
  | register name =>
    rw [destination]
    split
    · rename_i hhas
      exact .inl ⟨name, (Table.has_iff_mem_names _ _).mp hhas, rfl, rfl⟩
    · rename_i hhas
      refine .inr ⟨?_, _, rfl⟩
      rintro ⟨other, ⟨⟩, hmem⟩
      exact hhas ((Table.has_iff_mem_names _ _).mpr hmem)
  | int n | label name | empty => exact .inr ⟨nofun, _, rfl⟩

theorem stored_assign {m : Machine} {name : String} (hname : name ∈ m.registers.names) (v : Value) :
    m.Stored (m.assign name v) name v := by
  refine ⟨m.registers.put name v, rfl, ?_, Table.get?_put_self .., fun other hne => ?_⟩
  · rw [Table.names_put, if_pos hname]
  · exact Table.get?_put_of_ne _ _ hne.symm

theorem answering_answering {α β γ : Type} (f : β → γ) (g : α → β)
    (result : Machine × Except Fault α) :
    answering f (answering g result) = answering (f ∘ g) result := by
  rcases result with ⟨later, fault | a⟩ <;> rfl

theorem moved_moveTo (m : Machine) (index : Nat) : m.Moved (m.moveTo index) index :=
  ⟨index, rfl, rfl⟩

end Machine

/-- An operation on the registers or on the cursor, with its operands. -/
inductive Access where
  | read (v : Value)
  | readInt (v : Value)
  | write (target v : Value)
  | writeInt (target : Value) (n : Int)
  | jump (index : Int)
  | jumpToValue (v : Value)
  | jumpToLabel (v : Value)

namespace Access

def perform (m : Machine) : Access → Machine × Except Fault Reply
  | .read v => (m.read v).map id fun found => .ok (.value found)
  | .readInt v => (m.readInt v).map id fun n => .ok (.integer n)
  | .write target v => (m.write target v).map id fun stored => .ok (.flag stored)
  | .writeInt target n => Machine.answering .flag (m.writeInt target n)
  | .jump index => Machine.answering (fun _ => .nothing) (m.jump index)
  | .jumpToValue v => (m.jumpToValue v, .ok .nothing)
  | .jumpToLabel v => (m.jumpToLabel v, .ok .nothing)

/-- When an operation fails. -/
def Fails (m : Machine) : Access → Prop
  | .read v => v.IsDangling m.registers
  | .readInt v => v.IsDangling m.registers ∨
    ∃ found, v.resolve m.registers = some found ∧ ∀ n, found ≠ .int n
  | .write target v => ¬ target.IsDestination m.registers ∨ v.IsDangling m.registers
  | .writeInt target n => ¬ target.IsDestination m.registers ∨
    ¬ (Value.leastInt ≤ n ∧ n ≤ Value.greatestInt)
  | .jump index => index < 0
  | .jumpToValue v => v.IsDangling m.registers ∨
    ∃ found, v.resolve m.registers = some found ∧ ∀ n, found = .int n → n.toInt < 0
  | .jumpToLabel v => v.IsDangling m.registers ∨ ∃ found, v.resolve m.registers = some found ∧
    ∀ name, found = .label name → name ∉ m.labels.names

/-- When an operation fails for an integer that its message cannot show. -/
def Unspeakable (m : Machine) : Access → Prop
  | .writeInt target n => target.IsDestination m.registers ∧ ¬ Numeral.IsWritable n
  | .jump index => index < 0 ∧ ¬ Numeral.IsWritable index
  | _ => False

/-- What an operation answers when it fails. -/
def refusal : Access → Reply
  | .read _ => .value none
  | .readInt _ => .integer none
  | .write .. | .writeInt .. => .flag false
  | .jump _ | .jumpToValue _ | .jumpToLabel _ => .nothing

/-- What an operation does and answers when it does not fail. -/
def Done (m : Machine) : Access → Machine → Reply → Prop
  | .read v, later, reply =>
    later = m ∧ ∃ found, v.resolve m.registers = some found ∧ reply = .value (some found)
  | .readInt v, later, reply =>
    later = m ∧ ∃ n, v.resolve m.registers = some (.int n) ∧ reply = .integer (some n.toInt)
  | .write target v, later, reply => reply = .flag true ∧ ∃ name found,
    target = .register name ∧ v.resolve m.registers = some found ∧ m.Stored later name found
  | .writeInt target n, later, reply => reply = .flag true ∧ ∃ name k,
    target = .register name ∧ Int32.toInt k = n ∧ m.Stored later name (.int k)
  | .jump index, later, reply => reply = .nothing ∧ m.Moved later index
  | .jumpToValue v, later, reply => reply = .nothing ∧ ∃ n,
    v.resolve m.registers = some (.int n) ∧ m.Moved later n.toInt
  | .jumpToLabel v, later, reply => reply = .nothing ∧ ∃ name index,
    v.resolve m.registers = some (.label name) ∧ m.labels.get? name = some index ∧ m.Moved later index

/-- An operation fails if and only if there is a reason for it, and says so unless it cannot. Else it is
done without a message. -/
structure Settles (a : Access) (m : Machine) : Prop where
  aborted_iff : m.Aborted (a.perform m).1 ↔ a.Fails m ∧ ¬ a.Unspeakable m
  refused : a.Fails m → ¬ a.Unspeakable m → (a.perform m).2 = .ok a.refusal
  faulty_iff : (∃ fault, (a.perform m).2 = .error fault) ↔ a.Unspeakable m
  unspoken : a.Unspeakable m → a.Fails m ∧ a.perform m = (m, .error .integerUnwritable)
  unreported : ¬ a.Fails m → m.Unreported (a.perform m).1
  done : ¬ a.Fails m → ∃ reply, (a.perform m).2 = .ok reply ∧ a.Done m (a.perform m).1 reply

variable {a : Access} {m : Machine}

theorem not_aborted_of_errorCount {later : Machine} (h : later.errorCount = m.errorCount) :
    ¬ m.Aborted later := by
  rintro ⟨d, haborted⟩
  have hmore : later.errorCount = m.errorCount + 1 := congrArg Machine.errorCount haborted
  exact absurd (hmore.symm.trans h) (Nat.succ_ne_self _)

theorem settles_of_fails (h : a.Fails m) (hspeakable : ¬ a.Unspeakable m) {d : Diagnostic}
    (hperform : a.perform m = (m.report d true, .ok a.refusal)) : a.Settles m where
  aborted_iff := iff_of_true (hperform ▸ ⟨d, rfl⟩) ⟨h, hspeakable⟩
  refused _ _ := congrArg Prod.snd hperform
  faulty_iff := iff_of_false (by rw [hperform]; rintro ⟨fault, ⟨⟩⟩) hspeakable
  unspoken hno := absurd hno hspeakable
  unreported hno := absurd h hno
  done hno := absurd h hno

theorem settles_of_unspeakable (h : a.Fails m) (hunspeakable : a.Unspeakable m)
    (hperform : a.perform m = (m, .error .integerUnwritable)) : a.Settles m where
  aborted_iff := iff_of_false (hperform ▸ not_aborted_of_errorCount rfl) fun hyes => hyes.2 hunspeakable
  refused _ hno := absurd hunspeakable hno
  faulty_iff := iff_of_true ⟨_, congrArg Prod.snd hperform⟩ hunspeakable
  unspoken _ := ⟨h, hperform⟩
  unreported hno := absurd h hno
  done hno := absurd h hno

/-- A failure whose message shows an integer is reported or not, as the integer can be written or not. -/
theorem settles_of_reportShowing (h : a.Fails m) {n : Int} {d : Diagnostic}
    (hunspeakable : a.Unspeakable m ↔ ¬ Numeral.IsWritable n)
    (hperform : a.perform m = Machine.answering (fun _ => a.refusal) (m.reportShowing [n] d)) :
    a.Settles m := by
  simp only [Machine.reportShowing, List.forall_mem_singleton] at hperform
  by_cases hwritable : Numeral.IsWritable n
  · rw [if_pos hwritable] at hperform
    exact settles_of_fails h (fun hno => hunspeakable.mp hno hwritable) hperform
  · rw [if_neg hwritable] at hperform
    exact settles_of_unspeakable h (hunspeakable.mpr hwritable) hperform

theorem settles_of_done (h : ¬ a.Fails m) (hspeakable : ¬ a.Unspeakable m) {later : Machine}
    {reply : Reply} (hperform : a.perform m = (later, .ok reply)) (hunreported : m.Unreported later)
    (hdone : a.Done m later reply) : a.Settles m where
  aborted_iff :=
    iff_of_false (hperform ▸ not_aborted_of_errorCount hunreported.errorCount) fun hyes => h hyes.1
  refused hyes := absurd hyes h
  faulty_iff := iff_of_false (by rw [hperform]; rintro ⟨fault, ⟨⟩⟩) hspeakable
  unspoken hno := absurd hno hspeakable
  unreported _ := hperform ▸ hunreported
  done _ := ⟨reply, congrArg Prod.snd hperform, hperform ▸ hdone⟩

variable (m : Machine)

theorem settles_read (v : Value) : (read v).Settles m := by
  cases hfound : v.resolve m.registers with
  | none =>
    exact settles_of_fails (Value.resolve_eq_none_iff.mp hfound) id (by
      simp only [perform, Machine.read, hfound]
      rfl)
  | some found =>
    have hperform : (read v).perform m = (m, .ok (.value (some found))) := by
      simp only [perform, Machine.read, hfound]
      rfl
    exact settles_of_done (Value.not_isDangling hfound) id hperform ⟨rfl, rfl, rfl⟩
      ⟨rfl, found, hfound, rfl⟩

theorem settles_readInt (v : Value) : (readInt v).Settles m := by
  cases hfound : v.resolve m.registers with
  | none =>
    exact settles_of_fails (.inl (Value.resolve_eq_none_iff.mp hfound)) id (by
      simp only [perform, Machine.readInt, Machine.read, hfound]
      rfl)
  | some found =>
    cases found with
    | int n =>
      have hperform : (readInt v).perform m = (m, .ok (.integer (some n.toInt))) := by
        simp only [perform, Machine.readInt, Machine.read, hfound]
        rfl
      have hfit : ¬ (readInt v).Fails m :=
        mt (Value.isDangling_or_iff hfound _).mp fun hno => hno n rfl
      exact settles_of_done hfit id hperform ⟨rfl, rfl, rfl⟩ ⟨rfl, n, hfound, rfl⟩
    | label name | register name | empty =>
      exact settles_of_fails ((Value.isDangling_or_iff hfound _).mpr nofun) id (by
        simp only [perform, Machine.readInt, Machine.read, hfound]
        rfl)

theorem settles_write (target v : Value) : (write target v).Settles m := by
  obtain ⟨name, hname, rfl, hdestination⟩ | ⟨hno, d, hdestination⟩ := m.destination_cases target
  · cases hfound : v.resolve m.registers with
    | none =>
      exact settles_of_fails (.inr (Value.resolve_eq_none_iff.mp hfound)) id (by
        simp only [perform, Machine.write, hdestination, Machine.read, hfound]
        rfl)
    | some found =>
      have hperform : (write (.register name) v).perform m =
          (m.assign name found, .ok (.flag true)) := by
        simp only [perform, Machine.write, hdestination, Machine.read, hfound]
        rfl
      refine settles_of_done ?_ id hperform ⟨rfl, rfl, rfl⟩
        ⟨rfl, name, found, rfl, hfound, Machine.stored_assign hname found⟩
      rintro (hno | hdangling)
      · exact hno ⟨name, rfl, hname⟩
      · exact Value.not_isDangling hfound hdangling
  · exact settles_of_fails (.inl hno) id (by
      simp only [perform, Machine.write, hdestination]
      rfl)

theorem settles_writeInt (target : Value) (n : Int) : (writeInt target n).Settles m := by
  obtain ⟨name, hname, rfl, hdestination⟩ | ⟨hno, d, hdestination⟩ := m.destination_cases target
  · by_cases hrange : Value.leastInt ≤ n ∧ n ≤ Value.greatestInt
    · have hperform : (writeInt (.register name) n).perform m =
          (m.assign name (.int (Int32.ofInt n)), .ok (.flag true)) := by
        simp only [perform, Machine.writeInt, hdestination, Value.ofInt?, if_pos hrange]
        rfl
      have hsame : (Int32.ofInt n).toInt = n := Value.toInt_ofInt hrange
      refine settles_of_done ?_ (fun hno => hno.2 (Numeral.isWritable_of_inRange hrange)) hperform
        ⟨rfl, rfl, rfl⟩ ⟨rfl, name, Int32.ofInt n, rfl, hsame, Machine.stored_assign hname _⟩
      rintro (hno | hout)
      · exact hno ⟨name, rfl, hname⟩
      · exact hout hrange
    · have hperform : (writeInt (.register name) n).perform m = Machine.answering
          (fun _ => .flag false) (m.reportShowing [n] (.integerOutOfRange n)) := by
        simp only [perform, Machine.writeInt, hdestination, Value.ofInt?, if_neg hrange]
        exact Machine.answering_answering ..
      exact settles_of_reportShowing (.inr hrange) (and_iff_right ⟨name, rfl, hname⟩) hperform
  · exact settles_of_fails (.inl hno) (fun hyes => hno hyes.1) (by
      simp only [perform, Machine.writeInt, hdestination]
      rfl)

theorem settles_jump (index : Int) : (jump index).Settles m := by
  by_cases hnegative : index < 0
  · have hperform : (jump index).perform m = Machine.answering (fun _ => .nothing)
        (m.reportShowing [index] (.negativeDestination index)) := by
      rw [perform, Machine.jump, if_pos hnegative]
    exact settles_of_reportShowing hnegative (and_iff_right hnegative) hperform
  · have hperform : (jump index).perform m = (m.moveTo index.toNat, .ok .nothing) := by
      rw [perform, Machine.jump, if_neg hnegative]
      rfl
    have hsame : (index.toNat : Int) = index := Int.toNat_of_nonneg (Int.not_lt.mp hnegative)
    exact settles_of_done hnegative (fun hno => hnegative hno.1) hperform ⟨rfl, rfl, rfl⟩
      ⟨rfl, hsame ▸ m.moved_moveTo index.toNat⟩

theorem settles_jumpToValue (v : Value) : (jumpToValue v).Settles m := by
  cases hfound : v.resolve m.registers with
  | none =>
    exact settles_of_fails (.inl (Value.resolve_eq_none_iff.mp hfound)) id (by
      simp only [perform, Machine.jumpToValue, hfound]
      rfl)
  | some found =>
    cases found with
    | int n =>
      by_cases hnonneg : 0 ≤ n.toInt
      · have hperform : (jumpToValue v).perform m = (m.moveTo n.toInt.toNat, .ok .nothing) := by
          simp only [perform, Machine.jumpToValue, hfound, if_pos hnonneg]
        have hsame : (n.toInt.toNat : Int) = n.toInt := Int.toNat_of_nonneg hnonneg
        have hfit : ¬ (jumpToValue v).Fails m :=
          mt (Value.isDangling_or_iff hfound _).mp fun hno => Int.not_lt.mpr hnonneg (hno n rfl)
        exact settles_of_done hfit id hperform ⟨rfl, rfl, rfl⟩
          ⟨rfl, n, hfound, hsame ▸ m.moved_moveTo n.toInt.toNat⟩
      · refine settles_of_fails ((Value.isDangling_or_iff hfound _).mpr ?_) id (by
          simp only [perform, Machine.jumpToValue, hfound, if_neg hnonneg]
          rfl)
        rintro other ⟨⟩
        exact Int.not_le.mp hnonneg
    | label name | register name | empty =>
      exact settles_of_fails ((Value.isDangling_or_iff hfound _).mpr nofun) id (by
        simp only [perform, Machine.jumpToValue, hfound]
        rfl)

theorem settles_jumpToLabel (v : Value) : (jumpToLabel v).Settles m := by
  cases hfound : v.resolve m.registers with
  | none =>
    exact settles_of_fails (.inl (Value.resolve_eq_none_iff.mp hfound)) id (by
      simp only [perform, Machine.jumpToLabel, hfound]
      rfl)
  | some found =>
    cases found with
    | label name =>
      have hbound := Table.has_iff_mem_names m.labels name
      cases hindex : m.labels.get? name with
      | none =>
        rw [Table.has, hindex] at hbound
        refine settles_of_fails ((Value.isDangling_or_iff hfound _).mpr ?_) id (by
          simp only [perform, Machine.jumpToLabel, hfound, hindex]
          rfl)
        rintro other ⟨⟩ hmem
        cases hbound.mpr hmem
      | some index =>
        rw [Table.has, hindex] at hbound
        have hperform : (jumpToLabel v).perform m = (m.moveTo index, .ok .nothing) := by
          simp only [perform, Machine.jumpToLabel, hfound, hindex]
        have hfit : ¬ (jumpToLabel v).Fails m :=
          mt (Value.isDangling_or_iff hfound _).mp fun hno => hno name rfl (hbound.mp rfl)
        exact settles_of_done hfit id hperform ⟨rfl, rfl, rfl⟩
          ⟨rfl, name, index, hfound, hindex, m.moved_moveTo index⟩
    | int n | register name | empty =>
      refine settles_of_fails ((Value.isDangling_or_iff hfound _).mpr ?_) id (by
        simp only [perform, Machine.jumpToLabel, hfound]
        rfl)
      rintro other ⟨⟩

def oneRegister : Machine := { registers := [("r", .empty)] }

end Access

end LineAssembly
