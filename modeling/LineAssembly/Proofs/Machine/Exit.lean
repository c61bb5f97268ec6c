import LineAssembly.Proofs.Machine.Change
import LineAssembly.Proofs.Machine.FailStop

/-! # Where a run exits

As long as no script resets the machine, the cursor moves by one index or by a jump, so the cursor of a
finished run tells why it ended: at the refused token, behind the statement whose instruction halted the
machine, or past the program. A run that never jumps and never halts takes its tokens one by one, and so
invokes the instruction of each statement exactly once.
-/

set_option autoImplicit false

namespace LineAssembly

namespace Machine

variable {m middle later : Machine}

/-- What a frozen machine keeps, whatever is asked of it short of a reset. -/
structure Keeps (m later : Machine) : Prop where
  frozen : later.frozen = true
  instructions : later.instructions = m.instructions
  place : later.jumped = true ∨ later.jumped = m.jumped ∧ later.cursor = m.cursor

theorem Keeps.refl (hfrozen : m.frozen = true) : m.Keeps m :=
  ⟨hfrozen, rfl, .inr ⟨rfl, rfl⟩⟩

theorem Keeps.trans (h : m.Keeps middle) (h' : middle.Keeps later) : m.Keeps later := by
  refine ⟨h'.frozen, h'.instructions.trans h.instructions, ?_⟩
  obtain hjumped | ⟨hjumped, hcursor⟩ := h'.place
  · exact .inl hjumped
  · rw [hjumped, hcursor]
    exact h.place

theorem Deed.keeps (h : Deed (· ≠ .reset) m later) (hfrozen : m.frozen = true) : m.Keeps later := by
  cases h with
  | declare name thawed | install i thawed =>
    rw [hfrozen] at thawed
    cases thawed
  | reset permitted => exact absurd rfl permitted
  | moveTo index => exact ⟨hfrozen, rfl, .inl rfl⟩
  | bindLabels bindings => exact ⟨rfl, rfl, .inr ⟨rfl, rfl⟩⟩
  | report d halting => cases halting <;> exact ⟨hfrozen, rfl, .inr ⟨rfl, rfl⟩⟩
  | hold | log | emit | halt | store | assign => exact ⟨hfrozen, rfl, .inr ⟨rfl, rfl⟩⟩

theorem Deeds.keeps (h : Deeds (· ≠ .reset) m later) (hfrozen : m.frozen = true) : m.Keeps later := by
  induction h with
  | refl => exact .refl hfrozen
  | tail _ last ih => exact ih.trans (last.keeps ih.frozen)

/-- A frozen machine takes no new instructions, so what its scripts declare does not matter. -/
theorem keeps_execute {i : Instruction} (hfrozen : m.frozen = true) (hi : i.Within (· ≠ .reset))
    (hm : m.Within (· ≠ .reset)) (arguments : List Value) : m.Keeps (m.execute i arguments).1 := by
  refine (within_executeWithin callLimit i arguments m (fun hthawed => ?_) hi hm).keeps hfrozen
  rw [hfrozen] at hthawed
  cases hthawed

end Machine

namespace Statement

/-- The tokens of a statement from its mnemonic to its last operand. -/
structure OpenAt (tokens : Array Token) (c : Nat) (s : Statement) : Prop where
  mnemonic : tokens[c]? = some (.instruction s.mnemonic)
  operands : OperandsAt tokens (c + 1) s.operands

theorem Operand.token_injective {o o' : Operand} (h : o.token = o'.token) : o = o' := by
  cases o <;> cases o' <;> cases h <;> rfl

theorem OpenAt.extend {tokens : Array Token} {c : Nat} {s : Statement} {o : Operand}
    (h : OpenAt tokens c s) (htoken : tokens[c + 1 + s.operands.length]? = some o.token) :
    OpenAt tokens c (s.extend o) := by
  refine ⟨h.mnemonic, fun j o' hj => ?_⟩
  rw [Statement.extend, List.getElem?_append] at hj
  split at hj
  · exact h.operands j o' hj
  · obtain ⟨hlt, hlast⟩ := List.getElem?_eq_some_iff.mp hj
    have hindex : j = s.operands.length := by
      rw [List.length_singleton] at hlt
      omega
    subst hindex
    simp only [Nat.sub_self, List.getElem_cons_zero] at hlast
    rw [htoken, hlast]

end Statement

namespace Run

open Statement (OpenAt StatementAt OperandsAt)

variable {program : Array Token} {base later final : Machine} {r s next last : Run} {token : Token}
  {error : TokenError} {call : Invocation} {n k fuel : Nat}

/-! ## The statement that is being collected -/

/-- What is pending comes from the tokens behind the cursor. -/
structure Gathers (program : Array Token) (base : Machine) (r : Run) : Prop where
  frozen : r.machine.frozen = true
  instructions : r.machine.instructions = base.instructions
  statement : ∀ i, r.machine.halted = false → r.pending = some i → ∃ c s, OpenAt program c s ∧
    r.machine.cursor = c + 1 + s.operands.length ∧ base.instructions.get? s.mnemonic = some i ∧
    r.operands = s.operands.map Statement.Operand.passed

theorem gathers_start (m : Machine) : m.start.Gathers program m :=
  ⟨rfl, rfl, nofun⟩

theorem Gathers.keeps (h : r.Gathers program base) (hbase : base.Within (· ≠ .reset))
    (hinvokes : r.Invokes program call)
    (hexecuted : r.ready.execute call.instruction call.arguments = (later, .ok ())) :
    r.ready.Keeps later := by
  obtain ⟨c, s, -, -, hknown, -⟩ :=
    h.statement call.instruction hinvokes.fetches.running hinvokes.pending
  have hready : r.ready.Within (· ≠ .reset) := by
    intro name i hi
    exact hbase name i (h.instructions ▸ hi)
  have hkeeps : r.ready.Keeps (r.ready.execute call.instruction call.arguments).1 :=
    Machine.keeps_execute (m := r.ready) h.frozen (hbase _ _ hknown) hready call.arguments
  rwa [hexecuted] at hkeeps

theorem Gathers.turn (h : r.Gathers program base) (hbase : base.Within (· ≠ .reset))
    (hturn : Turn program r next) : next.Gathers program base := by
  cases hturn with
  | refuses fetches refuses result =>
    rw [Machine.tokenError, Machine.report] at result
    constructor
    · rw [result]
      exact h.frozen
    · rw [result]
      exact h.instructions
    · intro i hrunning
      rw [result] at hrunning
      cases hrunning
  | passes fetches advances collects =>
    refine ⟨advances.frozen.trans h.frozen, advances.instructions.trans h.instructions, ?_⟩
    intro i hrunning hpending
    rw [advances.cursor]
    cases collects with
    | nothing before after =>
      rw [after] at hpending
      cases hpending
    | @mnemonic name j before found known after operands =>
      cases after.symm.trans hpending
      rw [h.instructions] at known
      refine ⟨r.machine.cursor, ⟨name, []⟩, ⟨found, fun j o hj => ?_⟩, rfl, known, operands⟩
      cases hj
    | @operand o j before found after operands =>
      cases after.symm.trans hpending
      obtain ⟨c, s, hopen, hcursor, hknown, harguments⟩ := h.statement i fetches.running before
      rw [hcursor] at found ⊢
      refine ⟨c, s.extend o, hopen.extend found, ?_, hknown, ?_⟩
      · simp only [Statement.extend, List.length_append, List.length_singleton]
        omega
      · simp [operands, harguments, Statement.extend]
  | @invokes call later invokes executed result =>
    have hkeeps := h.keeps hbase invokes executed
    subst result
    refine ⟨?_, ?_, fun i _ hpending => by cases hpending⟩
    · rw [frozen_continued]
      exact hkeeps.frozen
    · rw [instructions_continued]
      exact hkeeps.instructions.trans h.instructions

theorem Steps.gathers (h : Steps program n r s) (hr : r.Gathers program base)
    (hbase : base.Within (· ≠ .reset)) : s.Gathers program base := by
  induction h with
  | refl => exact hr
  | head first _ ih => exact ih (hr.turn hbase (turn_of_step first))

/-! ## How a run stops -/

/-- An error about the fetched token halts the machine. -/
structure Rejects (program : Array Token) (r : Run) (token : Token) (error : TokenError) : Prop where
  fetches : r.Fetches program token
  refuses : r.Refuses token error

/-- The invoked instruction halts the machine. -/
structure HaltsIn (program : Array Token) (r : Run) (call : Invocation) (later : Machine) : Prop where
  invokes : r.Invokes program call
  executed : r.ready.execute call.instruction call.arguments = (later, .ok ())
  halted : later.halted = true

theorem Rejects.not_invokes (h : r.Rejects program token error) : ¬ r.Invokes program call := by
  intro hinvokes
  obtain ⟨hfetches, hrefuses⟩ := h
  cases hfetches.found.symm.trans hinvokes.fetches.found
  cases hrefuses

/-- A run that halts in a step ends with the machine of that step. -/
theorem eq_of_halting {result : Except Fault Unit} (hsteps : Steps program n r s)
    (hstep : s.step program = .next next) (hhalted : next.machine.halted = true)
    (hrun : upTo program fuel r = some (final, result)) : final = next.machine := by
  obtain ⟨rest, -, hrest⟩ := (hsteps.trans (.single hstep)).exists_fuel_of_upTo hrun
  exact (upTo_of_halted hhalted hrest).1

theorem Rejects.lt_of_invokes {t : Run} (h : s.Rejects program token error)
    (hsteps : Steps program n r s) (hlater : Steps program k r t) (hinvokes : t.Invokes program call) :
    k < n := by
  by_contra hle
  obtain ⟨j, rfl⟩ := Nat.exists_eq_add_of_le (Nat.le_of_not_lt hle)
  cases hsteps.remaining hlater with
  | refl => exact h.not_invokes hinvokes
  | head first rest =>
    cases first.symm.trans (step_of_refuses h.fetches h.refuses)
    -- Behind the refusal the machine is halted: it invokes nothing and takes no step.
    cases rest with
    | refl => cases hinvokes.fetches.running
    | head first' _ => cases (exists_token_of_step first').1

/-- There are three ways to be halted: from the start, for a token or by an instruction. -/
theorem exists_halting (h : Steps program n r last) (hhalted : last.machine.halted = true) :
    r.machine.halted = true ∨ ∃ k s, Steps program k r s ∧
      ((∃ token error, s.Rejects program token error) ∨
        ∃ call later, s.HaltsIn program call later) := by
  cases n with
  | zero =>
    cases h
    exact .inl hhalted
  | succ n =>
    obtain ⟨s, hsteps, hstep⟩ := h.exists_last
    refine .inr ⟨n, s, hsteps, ?_⟩
    cases turn_of_step hstep with
    | refuses fetches refuses result => exact .inl ⟨_, _, fetches, refuses⟩
    | passes fetches advances collects =>
      rw [advances.halted, fetches.running] at hhalted
      cases hhalted
    | invokes invokes executed result =>
      rw [result, halted_continued] at hhalted
      exact .inr ⟨_, _, invokes, executed, hhalted⟩

/-! ## Runs without jumps -/

theorem running_of_turn (hturn : Turn program r next) (hrunning : next.machine.halted = false) :
    (∃ call later, r.Invokes program call ∧
      r.ready.execute call.instruction call.arguments = (later, .ok ()) ∧ next = continued later) ∨
    Advances r.machine next.machine ∧ Collects program r next := by
  cases hturn with
  | refuses fetches refuses result =>
    rw [result] at hrunning
    cases hrunning
  | passes fetches advances collects => exact .inr ⟨advances, collects⟩
  | invokes invokes executed result => exact .inl ⟨_, _, invokes, executed, result⟩

/-- Without a jump, each step takes the token behind the last one. -/
theorem cursor_of_steps {m : Machine} (hm : m.Within (· ≠ .reset))
    (hstraight : ∀ k s, Steps program (k + 1) m.start s → s.machine.jumped = false)
    (h : Steps program n m.start r) (hrunning : r.machine.halted = false) :
    r.machine.cursor = n := by
  induction n generalizing r with
  | zero =>
    cases h
    rfl
  | succ n ih =>
    obtain ⟨b, hb, hstep⟩ := h.exists_last
    have hcursor : b.machine.cursor = n := ih hb (exists_token_of_step hstep).1
    obtain ⟨call, later, hinvokes, hexecuted, rfl⟩ | ⟨hadvances, -⟩ :=
      running_of_turn (turn_of_step hstep) hrunning
    · have hjumped : later.jumped = false := by
        rw [← jumped_continued later]
        exact hstraight n _ h
      obtain hmoved | ⟨-, hplace⟩ := ((hb.gathers (gathers_start m) hm).keeps hm hinvokes hexecuted).place
      · rw [hjumped] at hmoved
        cases hmoved
      · rw [Statement.cursor_continued hjumped, hplace]
        exact congrArg (· + 1) hcursor
    · rw [hadvances.cursor, hcursor]

theorem pending_of_mnemonic {name : String} (hturn : Turn program r next)
    (hrunning : next.machine.halted = false)
    (hfound : program[r.machine.cursor]? = some (.instruction name)) :
    ∃ i, r.machine.instructions.get? name = some i ∧ next.pending = some i ∧ next.operands = [] := by
  obtain ⟨call, later, hinvokes, -⟩ | ⟨-, hcollects⟩ := running_of_turn hturn hrunning
  · cases hfound.symm.trans hinvokes.fetches.found
  · cases hcollects with
    | nothing before after found => exact absurd hfound (found name)
    | mnemonic before found known after operands =>
      cases hfound.symm.trans found
      exact ⟨_, known, after, operands⟩
    | @operand o i before found after operands =>
      cases o <;> cases hfound.symm.trans found

theorem pending_of_operand {i : Instruction} {o : Statement.Operand} (hturn : Turn program r next)
    (hrunning : next.machine.halted = false) (hpending : r.pending = some i)
    (hfound : program[r.machine.cursor]? = some o.token) :
    next.pending = some i ∧ next.operands = r.operands ++ [o.passed] := by
  obtain ⟨call, later, hinvokes, -⟩ | ⟨-, hcollects⟩ := running_of_turn hturn hrunning
  · cases o <;> cases hfound.symm.trans hinvokes.fetches.found
  · cases hcollects with
    | nothing before | mnemonic before => cases hpending.symm.trans before
    | operand before found after operands =>
      cases hpending.symm.trans before
      cases Statement.Operand.token_injective (Option.some.inj (hfound.symm.trans found))
      exact ⟨after, operands⟩

/-- The run takes one token after the other, up to the end. -/
def Visits (program : Array Token) (r : Run) : Prop :=
  ∀ n ≤ program.size, ∃ s, Steps program n r s ∧ s.machine.halted = false ∧ s.machine.cursor = n

theorem visits_of_ended {m : Machine} (hm : m.Within (· ≠ .reset))
    (hstraight : ∀ k s, Steps program (k + 1) m.start s → s.machine.jumped = false)
    (hsteps : Steps program n m.start last) (hend : last.step program = .ended final (.ok ()))
    (hrunning : final.halted = false) :
    n = program.size ∧ final.cursor = program.size ∧ Visits program m.start := by
  obtain ⟨rfl, hexit⟩ := eq_of_ended_ok hend
  have hcursor : last.machine.cursor = n := cursor_of_steps hm hstraight hsteps hrunning
  -- The last token that was taken lies inside the program, and the cursor is just behind it.
  have hle : n ≤ program.size := by
    cases n with
    | zero => exact Nat.zero_le _
    | succ k =>
      obtain ⟨b, hb, hstep⟩ := hsteps.exists_last
      obtain ⟨hbefore, token, htoken, -⟩ := exists_token_of_step hstep
      have hlt := Fetches.lt_size ⟨hbefore, htoken⟩
      rwa [cursor_of_steps hm hstraight hb hbefore] at hlt
  have hsize : n = program.size := by
    rw [hrunning, hcursor] at hexit
    obtain ⟨⟨⟩⟩ | hge := hexit
    omega
  refine ⟨hsize, hcursor.trans hsize, fun k hk => ?_⟩
  obtain ⟨j, rfl⟩ := Nat.exists_eq_add_of_le (hsize ▸ hk)
  obtain ⟨s, hbefore, hafter⟩ := hsteps.split
  have hs : s.machine.halted = false := by
    cases hafter with
    | refl => exact hrunning
    | head first _ => exact (exists_token_of_step first).1
  exact ⟨s, hbefore, hs, cursor_of_steps hm hstraight hbefore hs⟩

namespace Visits

theorem turn (h : Visits program r) (hn : n < program.size) (hs : Steps program n r s) :
    ∃ t, Steps program (n + 1) r t ∧ t.machine.halted = false ∧ t.machine.cursor = n + 1 ∧
      Turn program s t := by
  obtain ⟨t, ht, hrunning, hcursor⟩ := h (n + 1) hn
  cases hs.remaining ht with
  | head first rest =>
    cases rest
    exact ⟨t, ht, hrunning, hcursor, turn_of_step first⟩

theorem operands (h : Visits program r) {i : Instruction} {operands : List Statement.Operand}
    (hn : n + operands.length ≤ program.size) (hs : Steps program n r s)
    (hrunning : s.machine.halted = false) (hcursor : s.machine.cursor = n)
    (hpending : s.pending = some i) (hat : OperandsAt program n operands) :
    ∃ t, Steps program (n + operands.length) r t ∧ t.machine.halted = false ∧
      t.machine.cursor = n + operands.length ∧ t.pending = some i ∧
      t.operands = s.operands ++ operands.map Statement.Operand.passed := by
  induction operands generalizing n s with
  | nil => exact ⟨s, hs, hrunning, hcursor, hpending, (List.append_nil _).symm⟩
  | cons o rest ih =>
    rw [List.length_cons] at hn
    have hfound : program[s.machine.cursor]? = some o.token := hcursor ▸ hat.head
    obtain ⟨next, hnext, hrunning', hcursor', hturn⟩ := h.turn (by omega) hs
    obtain ⟨hpending', hoperands⟩ := pending_of_operand hturn hrunning' hpending hfound
    obtain ⟨t, ht, htrunning, htcursor, htpending, htoperands⟩ :=
      ih (by omega) hnext hrunning' hcursor' hpending' hat.tail
    have hlength : n + 1 + rest.length = n + (o :: rest).length := by
      rw [List.length_cons]
      omega
    rw [hlength] at ht htcursor
    refine ⟨t, ht, htrunning, htcursor, htpending, ?_⟩
    rw [htoperands, hoperands, List.append_assoc]
    rfl

/-- A complete statement is taken token by token, and its end invokes its instruction. -/
theorem exists_invokes {m : Machine} {c : Nat} {statement : Statement}
    (h : Visits program m.start) (hm : m.Within (· ≠ .reset)) (hat : StatementAt program c statement) :
    ∃ i t, m.instructions.get? statement.mnemonic = some i ∧
      Steps program (c + 1 + statement.operands.length) m.start t ∧
      t.Invokes program ⟨c + 1 + statement.operands.length, i,
        statement.operands.map Statement.Operand.passed⟩ := by
  obtain ⟨hlt, -⟩ := Array.getElem?_eq_some_iff.mp hat.last
  obtain ⟨s, hs, -, hcursor⟩ := h c (by omega)
  obtain ⟨next, hnext, hrunning, hcursor', hturn⟩ := h.turn (by omega) hs
  obtain ⟨i, hknown, hpending, hnone⟩ :=
    pending_of_mnemonic hturn hrunning (hcursor ▸ hat.mnemonic)
  obtain ⟨t, ht, htrunning, htcursor, htpending, htoperands⟩ :=
    h.operands (by omega) hnext hrunning hcursor' hpending hat.operands
  rw [(hs.gathers (gathers_start m) hm).instructions] at hknown
  rw [hnone, List.nil_append] at htoperands
  exact ⟨i, t, hknown, ht, ⟨htrunning, htcursor ▸ hat.last⟩, htcursor, htpending, htoperands⟩

end Visits

/-- What is invoked comes from a complete statement. -/
theorem Gathers.exists_statementAt (h : r.Gathers program base) (hinvokes : r.Invokes program call) :
    ∃ c s, StatementAt program c s ∧ call.index = c + 1 + s.operands.length ∧
      base.instructions.get? s.mnemonic = some call.instruction ∧
      call.arguments = s.operands.map Statement.Operand.passed := by
  obtain ⟨hfetches, hindex, hpending, hoperands⟩ := hinvokes
  obtain ⟨c, s, hopen, hcursor, hknown, harguments⟩ :=
    h.statement call.instruction hfetches.running hpending
  have hlast := hfetches.found
  rw [hcursor] at hlast
  exact ⟨c, s, ⟨hopen.mnemonic, hopen.operands, hlast⟩, hindex.symm.trans hcursor, hknown,
    hoperands.symm.trans harguments⟩

theorem mem_invocations_iff_statementAt {m : Machine} (hm : m.Within (· ≠ .reset))
    (hvisits : Visits program m.start) (hfuel : program.size ≤ fuel) :
    call ∈ invocations program fuel m.start ↔ ∃ c s, StatementAt program c s ∧
      call.index = c + 1 + s.operands.length ∧ m.instructions.get? s.mnemonic = some call.instruction ∧
      call.arguments = s.operands.map Statement.Operand.passed := by
  rw [mem_invocations_iff]
  constructor
  · rintro ⟨n, -, r, hsteps, hinvokes⟩
    exact (hsteps.gathers (gathers_start m) hm).exists_statementAt hinvokes
  · rintro ⟨c, s, hat, hindex, hknown, harguments⟩
    obtain ⟨i, t, hi, hsteps, hinvokes⟩ := hvisits.exists_invokes hm hat
    obtain ⟨hlt, -⟩ := Array.getElem?_eq_some_iff.mp hat.last
    cases hknown.symm.trans hi
    obtain ⟨index, instruction, arguments⟩ := call
    cases hindex
    cases harguments
    exact ⟨_, by omega, t, hsteps, hinvokes⟩

/-- Without a jump, the index of an invocation is the number of steps before it. -/
theorem pairwise_invocations_of_straight {m : Machine} (hm : m.Within (· ≠ .reset))
    (hstraight : ∀ k s, Steps program (k + 1) m.start s → s.machine.jumped = false) :
    (invocations program fuel m.start).Pairwise fun a b => a.index < b.index := by
  apply pairwise_invocations
  intro n k s t a b hs ht ha hb
  have hfirst := cursor_of_steps hm hstraight hs ha.fetches.running
  have hsecond := cursor_of_steps hm hstraight (hs.trans ht) hb.fetches.running
  rw [← ha.index, ← hb.index, hfirst, hsecond]
  omega

end Run

namespace Machine

open Run (Steps)

/-- As long as no script resets the machine, every fetch is inside the program, and the cursor of a
finished run tells why the run has ended. Without a jump and without a halt the run is at the end of its
tokens, and the end of each complete statement has invoked its instruction once, in order. -/
theorem run_exits (m : Machine) (tokens : List Token) (hm : m.Within (· ≠ .reset)) :
    (∀ n r, Steps tokens.toArray n m.start r →
      ((r.machine.halted = true ∨ tokens.length ≤ r.machine.cursor) ∧
          r.step tokens.toArray = .ended r.machine (.ok ())) ∨
        (0 : Int) ≤ r.machine.cursor ∧ r.machine.cursor < tokens.length ∧
          ∃ token, r.Fetches tokens.toArray token ∧ r.step tokens.toArray = r.take token) ∧
    ∀ fuel final, m.run fuel tokens = some (final, .ok ()) →
      (0 : Int) ≤ final.cursor ∧ (final.halted = true ∨ tokens.length ≤ final.cursor) ∧
      (final.halted = true → m.halted = true ∨ ∃ n r, Steps tokens.toArray n m.start r ∧
        ((∃ token error, r.Rejects tokens.toArray token error) ∨
          ∃ call later, r.HaltsIn tokens.toArray call later)) ∧
      (∀ n r token error, Steps tokens.toArray n m.start r → r.Rejects tokens.toArray token error →
        final.halted = true ∧ tokens[final.cursor]? = some token ∧
        final.diagnostics.back? = some (.token final.cursor error) ∧
        (Diagnostic.token final.cursor error).message =
          "token " ++ toString final.cursor ++ ": " ++ error.message ∧
        ∀ k s call, Steps tokens.toArray k m.start s → s.Invokes tokens.toArray call → k < n) ∧
      (∀ n r call later, Steps tokens.toArray n m.start r → r.HaltsIn tokens.toArray call later →
        later.jumped = false → final.halted = true ∧ final.cursor = call.index + 1 ∧
          tokens[final.cursor - 1]? = some .statementEnd) ∧
      ((∀ n r, Steps tokens.toArray (n + 1) m.start r → r.machine.jumped = false) →
        final.halted = false → final.cursor = tokens.length ∧
          (Run.invocations tokens.toArray fuel m.start).Pairwise (fun a b => a.index < b.index) ∧
          ∀ call, call ∈ Run.invocations tokens.toArray fuel m.start ↔
            ∃ c s, Statement.StatementAt tokens.toArray c s ∧
              call.index = c + 1 + s.operands.length ∧
              m.instructions.get? s.mnemonic = some call.instruction ∧
              call.arguments = s.operands.map Statement.Operand.passed) := by
  constructor
  · intro n r _
    obtain ⟨hexit, hstep⟩ | ⟨token, hfetches, hstep⟩ := Run.exits_or_fetches tokens.toArray r
    · exact .inl ⟨by simpa using hexit, hstep⟩
    · exact .inr ⟨Int.natCast_nonneg _, by simpa using hfetches.lt_size, token, hfetches, hstep⟩
  intro fuel final hrun
  obtain ⟨n, last, hsteps, hend⟩ := Run.exists_steps_of_upTo hrun
  obtain ⟨hfinal, hexit⟩ := Run.eq_of_ended_ok hend
  simp only at hfinal
  refine ⟨Int.natCast_nonneg _, ?_, ?_, ?_, ?_, ?_⟩
  · rw [hfinal]
    simpa using hexit
  · intro hhalted
    exact Run.exists_halting hsteps (hfinal ▸ hhalted)
  · intro k r token error hr hrejects
    have hstep := Run.step_of_refuses hrejects.fetches hrejects.refuses
    obtain rfl := Run.eq_of_halting hr hstep rfl hrun
    refine ⟨rfl, ?_, ?_, rfl, fun j s call => hrejects.lt_of_invokes hr⟩
    · rw [← List.getElem?_toArray]
      exact hrejects.fetches.found
    · exact Array.back?_push
  · intro k r call later hr hhalts hjumped
    have hstep := Run.step_of_invokes hhalts.invokes hhalts.executed
    obtain rfl := Run.eq_of_halting hr hstep (by rw [Run.halted_continued, hhalts.halted]) hrun
    have hplace : later.cursor = call.index := by
      have hgathers := hr.gathers (Run.gathers_start m) hm
      obtain hmoved | ⟨-, hplace⟩ := (hgathers.keeps hm hhalts.invokes hhalts.executed).place
      · rw [hjumped] at hmoved
        cases hmoved
      · exact hplace.trans hhalts.invokes.index
    rw [Statement.cursor_continued hjumped, Run.halted_continued, hplace, Nat.add_sub_cancel,
      ← List.getElem?_toArray, ← hhalts.invokes.index]
    exact ⟨hhalts.halted, rfl, hhalts.invokes.fetches.found⟩
  · intro hstraight hrunning
    obtain ⟨rfl, hcursor, hvisits⟩ := Run.visits_of_ended hm hstraight hsteps hend hrunning
    obtain ⟨rest, hfuel, -⟩ := hsteps.exists_fuel_of_upTo hrun
    refine ⟨by simpa using hcursor, Run.pairwise_invocations_of_straight hm hstraight, fun call => ?_⟩
    exact Run.mem_invocations_iff_statementAt hm hvisits (by omega)

/-- Two host instructions: one makes a note of its arguments, the other halts. -/
def notingMachine : Machine :=
  { registers := [("a", .int 7)]
    instructions :=
      [("NOTE", ⟨"NOTE", Arity.atLeast 0, .script [.report "noted" false, .emit "noted"]⟩),
        ("STOP", ⟨"STOP", Arity.exactly 0, .script [.halt, .emit "stopped"]⟩)] }

def noting : List Token :=
  [.instruction "NOTE", .register "a", .statementEnd]

def stopping : List Token :=
  [.register "a", .instruction "STOP", .statementEnd, .value (.int 1)]

theorem run_exits_noting :
    notingMachine.Within (· ≠ .reset) ∧
    (∃ final, notingMachine.run 5 stopping = some (final, .ok ()) ∧ final.cursor = 3 ∧
      stopping[final.cursor - 1]? = some .statementEnd) ∧
    (∃ final, notingMachine.run 4 noting = some (final, .ok ()) ∧ final.cursor = 3 ∧
      ∃ call ∈ Run.invocations noting.toArray 4 notingMachine.start,
        call.index = 2 ∧ call.instruction.name = "NOTE" ∧ call.arguments = [.register "a"]) := by
  have hwithin : notingMachine.Within (· ≠ .reset) := by
    intro name i hi steps hsteps action haction
    have hmem := Table.mem_of_get? hi
    simp only [notingMachine, List.mem_cons, Prod.mk.injEq, List.not_mem_nil, or_false] at hmem
    obtain ⟨-, rfl⟩ | ⟨-, rfl⟩ := hmem
    all_goals
      cases hsteps
      simp only [List.mem_cons, List.not_mem_nil, or_false] at haction
      obtain rfl | rfl := haction <;> nofun
  refine ⟨hwithin, ?_, ?_⟩
  · obtain ⟨-, hexits⟩ := run_exits notingMachine stopping hwithin
    obtain ⟨-, -, -, -, hhalts, -⟩ := hexits 5 _ rfl
    have hsteps : ∃ r call later, Steps stopping.toArray 2 notingMachine.start r ∧
        r.HaltsIn stopping.toArray call later ∧ later.jumped = false ∧ call.index = 2 :=
      ⟨_, ⟨2, _, _⟩, _, .head rfl (.head rfl (.refl _)),
        ⟨⟨⟨rfl, rfl⟩, rfl, rfl, rfl⟩, rfl, rfl⟩, rfl, rfl⟩
    obtain ⟨r, call, later, hr, hhaltsIn, hjumped, hindex⟩ := hsteps
    obtain ⟨-, hcursor, hend⟩ := hhalts 2 r call later hr hhaltsIn hjumped
    exact ⟨_, rfl, by rw [hcursor, hindex], hend⟩
  · obtain ⟨-, hexits⟩ := run_exits notingMachine noting hwithin
    obtain ⟨-, -, -, -, -, hstraight⟩ := hexits 4 _ rfl
    have hnever : ∀ n r, Steps noting.toArray (n + 1) notingMachine.start r →
        r.machine.jumped = false := by
      rintro n r (_ | ⟨hmnemonic, (_ | ⟨hregister, (_ | ⟨hend, (_ | ⟨hpast, -⟩)⟩)⟩)⟩)
      · cases hmnemonic
        rfl
      · cases hmnemonic
        cases hregister
        rfl
      · cases hmnemonic
        cases hregister
        cases hend
        rfl
      · cases hmnemonic
        cases hregister
        cases hend
        cases hpast
    obtain ⟨hcursor, -, hmem⟩ := hstraight hnever rfl
    have hat : Statement.StatementAt noting.toArray 0 ⟨"NOTE", [.register "a"]⟩ := by
      refine ⟨rfl, fun j o hj => ?_, rfl⟩
      obtain ⟨hlt, rfl⟩ := List.getElem?_eq_some_iff.mp hj
      cases Nat.lt_one_iff.mp hlt
      rfl
    exact ⟨_, rfl, hcursor, ⟨2, _, _⟩, (hmem _).mpr ⟨0, _, hat, rfl, rfl, rfl⟩, rfl, rfl, rfl⟩

end Machine

end LineAssembly
