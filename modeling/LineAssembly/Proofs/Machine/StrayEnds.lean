import LineAssembly.Proofs.Listing.Rows
import LineAssembly.Proofs.Machine.Choice
import LineAssembly.Proofs.Machine.FailStop
import LineAssembly.Proofs.Machine.Relocation

/-! # Ends that close no statement

A run passes by the end of a statement that was never begun. Such ends can be left out of a program when
its labels are moved along: the shorter program does the same, in fewer steps. Main statement: of two
runs that track one another, one on a program and one on the program without its stray ends, either ends
if the other does, and then in the same state.
-/

set_option autoImplicit false

namespace LineAssembly

open Listing (stillOpen stillOpen_cons stillOpen_take_succ AtBoundary)

/-- The tokens but for the ends that close no statement, where one may be open at the front. -/
def withoutStrayEnds : Bool → List Token → List Token
  | _, [] => []
  | false, .statementEnd :: rest => withoutStrayEnds false rest
  | isOpen, t :: rest => t :: withoutStrayEnds (stillOpen isOpen [t]) rest

/-- Where a token index lies when the stray ends before it are left out. -/
def place (ts : List Token) (index : Nat) : Nat :=
  (withoutStrayEnds false (ts.take index)).length

section Place

variable {isOpen : Bool} {t : Token} {ts : List Token} {c : Nat}

theorem withoutStrayEnds_cons (h : isOpen = true ∨ t ≠ .statementEnd) (rest : List Token) :
    withoutStrayEnds isOpen (t :: rest) = t :: withoutStrayEnds (stillOpen isOpen [t]) rest := by
  cases isOpen with
  | true => rw [withoutStrayEnds]; nofun
  | false =>
    rw [withoutStrayEnds]
    rintro - rfl
    exact h.elim nofun (fun hne => hne rfl)

theorem withoutStrayEnds_append (isOpen : Bool) (ts others : List Token) :
    withoutStrayEnds isOpen (ts ++ others) =
      withoutStrayEnds isOpen ts ++ withoutStrayEnds (stillOpen isOpen ts) others := by
  induction ts generalizing isOpen with
  | nil => rfl
  | cons t rest ih =>
    by_cases hstray : isOpen = true ∨ t ≠ .statementEnd
    · rw [List.cons_append, withoutStrayEnds_cons hstray, withoutStrayEnds_cons hstray, ih,
        stillOpen_cons isOpen t rest, List.cons_append]
    · obtain ⟨hclosed, rfl⟩ : isOpen = false ∧ t = .statementEnd := by simpa using hstray
      subst hclosed
      exact ih false

theorem place_succ (h : ts[c]? = some t)
    (hkept : stillOpen false (ts.take c) = true ∨ t ≠ .statementEnd) :
    place ts (c + 1) = place ts c + 1 := by
  rw [place, List.take_add_one, h, Option.toList_some, withoutStrayEnds_append,
    withoutStrayEnds_cons hkept, List.length_append]
  rfl

theorem place_succ_of_stray (h : ts[c]? = some .statementEnd)
    (hclosed : stillOpen false (ts.take c) = false) : place ts (c + 1) = place ts c := by
  rw [place, List.take_add_one, h, Option.toList_some, withoutStrayEnds_append, hclosed,
    List.length_append]
  rfl

theorem getElem?_place (h : ts[c]? = some t)
    (hkept : stillOpen false (ts.take c) = true ∨ t ≠ .statementEnd) :
    (withoutStrayEnds false ts)[place ts c]? = some t := by
  obtain ⟨hlt, hget⟩ := List.getElem?_eq_some_iff.mp h
  have hsplit : ts = ts.take c ++ t :: ts.drop (c + 1) := by
    rw [← hget, List.getElem_cons_drop, List.take_append_drop]
  have hkeptsplit : withoutStrayEnds false ts = withoutStrayEnds false (ts.take c) ++
      t :: withoutStrayEnds (stillOpen (stillOpen false (ts.take c)) [t]) (ts.drop (c + 1)) :=
    calc withoutStrayEnds false ts
      _ = withoutStrayEnds false (ts.take c ++ t :: ts.drop (c + 1)) := congrArg _ hsplit
      _ = _ := by rw [withoutStrayEnds_append, withoutStrayEnds_cons hkept]
  rw [hkeptsplit, place, List.getElem?_append_right (Nat.le_refl _), Nat.sub_self]
  rfl

theorem getElem?_place_of_none (h : ts[c]? = none) : (withoutStrayEnds false ts)[place ts c]? = none := by
  rw [place, List.take_of_length_le (List.getElem?_eq_none_iff.mp h)]
  exact List.getElem?_eq_none (Nat.le_refl _)

end Place

namespace Machine

/-- What can be seen of a machine, its position in the program and the texts of its messages apart. -/
structure SameState (a b : Machine) : Prop where
  registers : b.registers = a.registers
  output : b.output = a.output
  errorCount : b.errorCount = a.errorCount
  halted : b.halted = a.halted

namespace SameState

variable {a b c : Machine}

theorem symm (h : SameState a b) : SameState b a :=
  ⟨h.registers.symm, h.output.symm, h.errorCount.symm, h.halted.symm⟩

theorem trans (h : SameState a b) (h' : SameState b c) : SameState a c :=
  ⟨h'.registers.trans h.registers, h'.output.trans h.output, h'.errorCount.trans h.errorCount,
    h'.halted.trans h.halted⟩

end SameState

/-- Two standard machines in the same state, where the labels of one are moved. -/
structure Relocated (f : Nat → Nat) (a b : Machine) : Prop extends SameState a b where
  left : a.IsStandard
  right : b.IsStandard
  labels : ∀ name, b.labels.get? name = (a.labels.get? name).map f

namespace Relocated

variable {f : Nat → Nat} {a b : Machine} (h : Relocated f a b)

include h

theorem placed (c c' : Nat) (jumped jumped' : Bool) :
    Relocated f { a with cursor := c, jumped := jumped } { b with cursor := c', jumped := jumped' } :=
  ⟨⟨h.registers, h.output, h.errorCount, h.halted⟩, h.left, h.right, h.labels⟩

theorem ready : Relocated f { a with jumped := false } { b with jumped := false } :=
  h.placed a.cursor b.cursor false false

theorem advance : Relocated f a.advance b.advance :=
  h.placed (a.cursor + 1) (b.cursor + 1) a.jumped b.jumped

theorem report (d d' : Diagnostic) (halting : Bool) :
    Relocated f (a.report d halting) (b.report d' halting) := by
  have hcount : b.errorCount + 1 = a.errorCount + 1 := by rw [h.errorCount]
  cases halting with
  | true => exact ⟨⟨h.registers, h.output, hcount, rfl⟩, h.left, h.right, h.labels⟩
  | false => exact ⟨⟨h.registers, h.output, hcount, h.halted⟩, h.left, h.right, h.labels⟩

theorem apply (e : Effect) : Relocated f (e.apply a) ((e.relocate f).apply b) := by
  cases e with
  | pass => exact h
  | store name v =>
    have hput : b.registers.put name v = a.registers.put name v := by rw [h.registers]
    exact ⟨⟨hput, h.output, h.errorCount, h.halted⟩, h.left, h.right, h.labels⟩
  | emit text =>
    have hpush : b.output.push text = a.output.push text := by rw [h.output]
    exact ⟨⟨h.registers, hpush, h.errorCount, h.halted⟩, h.left, h.right, h.labels⟩
  | goto index => exact ⟨⟨h.registers, h.output, h.errorCount, h.halted⟩, h.left, h.right, h.labels⟩
  | stop => exact ⟨⟨h.registers, h.output, h.errorCount, rfl⟩, h.left, h.right, h.labels⟩
  | fail d => exact h.report d d true

end Relocated

end Machine

namespace Run

variable {ts : List Token} {r s next : Run} {token : Token}

/-- The second run is where the first one is, on the program without stray ends. -/
structure Tracks (ts : List Token) (r s : Run) : Prop where
  machine : r.machine.Relocated (place ts) s.machine
  pending : s.pending = r.pending
  operands : s.operands = r.operands
  known : ∀ i, r.pending = some i → i ∈ Instruction.standard ∧ i.name ≠ "JV"
  cursor : s.machine.cursor = place ts r.machine.cursor
  inside : r.pending.isSome = stillOpen false (ts.take r.machine.cursor)
  boundaries : ∀ name index, r.machine.labels.get? name = some index → AtBoundary ts index

namespace Tracks

theorem standard (h : Tracks ts r s) : r.Standard :=
  ⟨h.machine.left, fun i hi => (h.known i hi).1⟩

theorem standard_right (h : Tracks ts r s) : s.Standard :=
  ⟨h.machine.right, fun i hi => (h.known i (h.pending ▸ hi)).1⟩

theorem choose_eq (h : Tracks ts r s) (token : Token) : s.choose token = r.choose token := by
  have hinstructions (name : String) :
      s.machine.instructions.get? name = r.machine.instructions.get? name :=
    (h.machine.right name).trans (h.machine.left name).symm
  cases token <;> simp only [choose, h.pending, h.machine.registers, hinstructions]

/-- Both runs go on behind a token that both programs have. -/
theorem onward (h : Tracks ts r s) (htoken : ts[r.machine.cursor]? = some token)
    (hkept : r.pending.isSome = true ∨ token ≠ .statementEnd) {m m' : Machine}
    (hmachine : m.Relocated (place ts) m') (hcursor : m.cursor = r.machine.cursor + 1)
    (hcursor' : m'.cursor = s.machine.cursor + 1) (hlabels : m.labels = r.machine.labels)
    {pending : Option Instruction} (operands : List Value)
    (hknown : ∀ i, pending = some i → i ∈ Instruction.standard ∧ i.name ≠ "JV")
    (hopen : pending.isSome = stillOpen r.pending.isSome [token]) :
    Tracks ts ⟨m, pending, operands⟩ ⟨m', pending, operands⟩ where
  machine := hmachine
  pending := rfl
  operands := rfl
  known := hknown
  cursor := by
    rw [h.inside] at hkept
    rw [hcursor, hcursor', h.cursor, place_succ htoken hkept]
  inside := by
    rw [hcursor, stillOpen_take_succ false htoken, ← h.inside]
    exact hopen
  boundaries := by
    rw [hlabels]
    exact h.boundaries

theorem refuse (h : Tracks ts r s) (error : TokenError) :
    Tracks ts (r.after (.refuse error)) (s.after (.refuse error)) :=
  ⟨h.machine.ready.report _ _ true, h.pending, h.operands, h.known, h.cursor, h.inside, h.boundaries⟩

theorem collect (h : Tracks ts r s) (htoken : ts[r.machine.cursor]? = some token)
    (hpending : r.pending.isSome = true) (hoperand : stillOpen true [token] = true) (v : Value) :
    Tracks ts (r.after (.collect v)) (s.after (.collect v)) := by
  have honward := h.onward htoken (.inl hpending) h.machine.ready.advance rfl rfl rfl
    (r.operands ++ [v]) h.known (by rw [hpending, hoperand])
  rw [after, after, h.pending, h.operands]
  exact honward

theorem finish {i : Instruction} (h : Tracks ts r s)
    (htoken : ts[r.machine.cursor]? = some .statementEnd) (hpending : r.pending = some i) :
    Tracks ts (r.after (.finish i)) (s.after (.finish i)) := by
  obtain ⟨hi, hjv⟩ := h.known i hpending
  have hsome : r.pending.isSome = true := by rw [hpending]; rfl
  have heffect : i.effect s.machine.registers s.machine.labels s.operands =
      (i.effect r.machine.registers r.machine.labels r.operands).relocate (place ts) := by
    rw [h.machine.registers, h.operands]
    exact Instruction.effect_relocate hi hjv h.machine.labels r.operands
  rw [after, after, heffect]
  have happly := h.machine.ready.apply
    (i.effect r.machine.registers r.machine.labels r.operands)
  cases he : i.effect r.machine.registers r.machine.labels r.operands with
  | goto index =>
    rw [he] at happly
    -- A jump leads to a label, where no statement is open.
    obtain ⟨name, hname⟩ := Instruction.label_of_effect_eq_goto hi hjv he
    exact ⟨happly, rfl, rfl, nofun, rfl, (h.boundaries name index hname).2.symm, h.boundaries⟩
  | pass | store | emit | stop | fail =>
    rw [he] at happly
    exact h.onward htoken (.inl hsome) happly.advance rfl rfl rfl [] nofun rfl

/-- A token that is no stray end is treated alike. -/
theorem after_choose (h : Tracks ts r s) (hjv : .instruction "JV" ∉ ts)
    (htoken : ts[r.machine.cursor]? = some token)
    (hkept : r.pending.isSome = true ∨ token ≠ .statementEnd) :
    Tracks ts (r.after (r.choose token)) (s.after (r.choose token)) := by
  cases hpending : r.pending with
  | some i =>
    have hsome : r.pending.isSome = true := by rw [hpending]; rfl
    cases token with
    | instruction name =>
      simp only [choose, hpending]
      exact h.refuse _
    | value v =>
      simp only [choose, hpending]
      exact h.collect htoken hsome rfl v
    | register name =>
      simp only [choose, hpending]
      split
      · exact h.collect htoken hsome rfl _
      · exact h.refuse _
    | statementEnd =>
      simp only [choose, hpending]
      exact h.finish htoken hpending
  | none =>
    cases token with
    | instruction name =>
      simp only [choose, hpending]
      cases hfound : r.machine.instructions.get? name with
      | none => exact h.refuse _
      | some i =>
        obtain ⟨hi, hname⟩ := h.machine.left.mem hfound
        refine h.onward htoken hkept h.machine.ready.advance rfl rfl rfl [] ?_ (by rw [hpending]; rfl)
        rintro j ⟨⟩
        exact ⟨hi, fun he => hjv (he ▸ hname ▸ List.mem_of_getElem? htoken)⟩
    | value v =>
      simp only [choose, hpending]
      exact h.refuse _
    | register name =>
      simp only [choose, hpending]
      have hreport := h.machine.ready.report (.token r.machine.cursor (.strayRegister name))
        (.token s.machine.cursor (.strayRegister name)) false
      have honward := h.onward htoken hkept hreport.advance rfl rfl rfl r.operands h.known
        (by rw [hpending]; rfl)
      rw [after, after, h.pending, h.operands]
      exact honward
    | statementEnd =>
      rw [hpending] at hkept
      rcases hkept with hsome | hne
      · cases hsome
      · exact absurd rfl hne

theorem skip (h : Tracks ts r s) (htoken : ts[r.machine.cursor]? = some .statementEnd)
    (hpending : r.pending = none) : Tracks ts (r.after .skip) s := by
  have hclosed : stillOpen false (ts.take r.machine.cursor) = false := by
    rw [← h.inside, hpending]
    rfl
  have hopen : stillOpen false (ts.take (r.machine.cursor + 1)) = false := by
    rw [stillOpen_take_succ false htoken, hclosed]
    rfl
  refine ⟨h.machine.placed _ s.machine.cursor false s.machine.jumped, h.pending, h.operands, h.known,
    ?_, ?_, h.boundaries⟩
  · exact h.cursor.trans (place_succ_of_stray htoken hclosed).symm
  · rw [after, hpending]
    exact hopen.symm

theorem step (h : Tracks ts r s) (hjv : .instruction "JV" ∉ ts)
    (hstep : r.step ts.toArray = .next next) :
    (Tracks ts next s ∧ next.machine.cursor = r.machine.cursor + 1 ∧ r.machine.cursor < ts.length) ∨
      ∃ s', s.step (withoutStrayEnds false ts).toArray = .next s' ∧ Tracks ts next s' := by
  obtain ⟨hrunning, token, htoken, htake⟩ := exists_token_of_step hstep
  rw [take_eq_after h.standard.pending] at htake
  cases htake
  rw [List.getElem?_toArray] at htoken
  by_cases hkept : r.pending.isSome = true ∨ token ≠ .statementEnd
  · -- Both programs have the token, and both runs choose the same.
    right
    refine ⟨_, ?_, h.after_choose hjv htoken hkept⟩
    rw [h.inside] at hkept
    have hplace : (withoutStrayEnds false ts).toArray[s.machine.cursor]? = some token := by
      rw [List.getElem?_toArray, h.cursor]
      exact getElem?_place htoken hkept
    rw [step_of_running (h.machine.halted.trans hrunning) hplace,
      take_eq_after h.standard_right.pending, h.choose_eq]
  · left
    obtain ⟨hpending, rfl⟩ : r.pending = none ∧ token = .statementEnd := by simpa using hkept
    have hchoose : r.choose .statementEnd = .skip := by simp only [choose, hpending]
    rw [hchoose]
    exact ⟨h.skip htoken hpending, rfl, (List.getElem?_eq_some_iff.mp htoken).1⟩

theorem ended (h : Tracks ts r s) {m : Machine} {result : Except Fault Unit}
    (hended : r.step ts.toArray = .ended m result) :
    m = r.machine ∧ result = .ok () ∧
      s.step (withoutStrayEnds false ts).toArray = .ended s.machine (.ok ()) := by
  obtain ⟨hm, hresult⟩ := eq_of_ended h.standard hended
  refine ⟨hm, hresult, ?_⟩
  cases hhalted : r.machine.halted with
  | true => exact step_of_halted (h.machine.halted.trans hhalted)
  | false =>
    cases htoken : ts[r.machine.cursor]? with
    | some token =>
      rw [step_of_running hhalted (by rw [List.getElem?_toArray]; exact htoken),
        take_eq_after h.standard.pending] at hended
      cases hended
    | none =>
      have hplace : (withoutStrayEnds false ts).toArray[s.machine.cursor]? = none := by
        rw [List.getElem?_toArray, h.cursor]
        exact getElem?_place_of_none htoken
      rw [Run.step, hplace]

theorem upTo (h : Tracks ts r s) (hjv : .instruction "JV" ∉ ts) {fuel : Nat} {final : Machine}
    {result : Except Fault Unit} (hrun : upTo ts.toArray fuel r = some (final, result)) :
    result = .ok () ∧ ∃ fuel' final',
      Run.upTo (withoutStrayEnds false ts).toArray fuel' s = some (final', .ok ()) ∧
        final.SameState final' := by
  induction fuel generalizing r s with
  | zero => cases hrun
  | succ fuel ih =>
    rw [Run.upTo] at hrun
    cases hstep : r.step ts.toArray with
    | ended m ended =>
      rw [hstep] at hrun
      cases hrun
      obtain ⟨rfl, rfl, hs⟩ := h.ended hstep
      exact ⟨rfl, 1, s.machine, upTo_of_ended hs, h.machine.toSameState⟩
    | next after =>
      rw [hstep] at hrun
      rcases h.step hjv hstep with ⟨hafter, -, -⟩ | ⟨s', hs, hafter⟩
      · exact ih hafter hrun
      · obtain ⟨hresult, fuel', final', hfinal, hsame⟩ := ih hafter hrun
        exact ⟨hresult, fuel' + 1, final', by rw [Run.upTo, hs]; exact hfinal, hsame⟩

/-- Between two steps of the shorter program only so many ends are passed by as there are tokens left. -/
theorem exists_upTo (h : Tracks ts r s) (hjv : .instruction "JV" ∉ ts) {fuel : Nat}
    {answer : Machine × Except Fault Unit}
    (hrun : Run.upTo (withoutStrayEnds false ts).toArray fuel s = some answer) :
    ∃ fuel' answer', Run.upTo ts.toArray fuel' r = some answer' := by
  induction fuel generalizing r s with
  | zero => cases hrun
  | succ fuel ih =>
    -- The second induction is on what lies ahead of the longer run.
    induction hleft : ts.length - r.machine.cursor using Nat.strongRecOn generalizing r with
    | ind left ihleft =>
      cases hstep : r.step ts.toArray with
      | ended m result => exact ⟨1, (m, result), upTo_of_ended hstep⟩
      | next after =>
        have hanswer : ∃ fuel' answer', Run.upTo ts.toArray fuel' after = some answer' := by
          rcases h.step hjv hstep with ⟨hafter, hcursor, hlt⟩ | ⟨s', hs, hafter⟩
          · exact ihleft (ts.length - after.machine.cursor) (by omega) hafter rfl
          · rw [Run.upTo, hs] at hrun
            exact ih hafter hrun
        obtain ⟨fuel', answer', hanswer⟩ := hanswer
        exact ⟨fuel' + 1, answer', by rw [Run.upTo, hstep]; exact hanswer⟩

end Tracks

end Run

namespace Machine

/-- Neither run ends, or both do, without a fault and in the same state. -/
structure SameRuns (a : Machine) (ts : List Token) (b : Machine) (ts' : List Token) : Prop where
  ends : (∃ fuel answer, a.run fuel ts = some answer) ↔ ∃ fuel answer, b.run fuel ts' = some answer
  agree : ∀ fuel fuel' final final' result result', a.run fuel ts = some (final, result) →
    b.run fuel' ts' = some (final', result') →
      result = .ok () ∧ result' = .ok () ∧ final.SameState final'

theorem Relocated.tracks_start {ts : List Token} {a b : Machine} (h : Relocated (place ts) a b)
    (hlabels : ∀ name index, a.labels.get? name = some index → AtBoundary ts index) :
    Run.Tracks ts a.start b.start :=
  ⟨⟨⟨h.registers, h.output, h.errorCount, h.halted⟩, h.left, h.right, h.labels⟩, rfl, rfl, nofun,
    rfl, rfl, hlabels⟩

theorem Relocated.sameRuns {ts : List Token} {a b : Machine} (h : Relocated (place ts) a b)
    (hlabels : ∀ name index, a.labels.get? name = some index → AtBoundary ts index)
    (hjv : .instruction "JV" ∉ ts) : SameRuns a ts b (withoutStrayEnds false ts) := by
  have hstart := h.tracks_start hlabels
  refine ⟨⟨?_, ?_⟩, ?_⟩
  · rintro ⟨fuel, ⟨final, result⟩, hfinal⟩
    obtain ⟨-, fuel', final', hfinal', -⟩ := hstart.upTo hjv hfinal
    exact ⟨fuel', _, hfinal'⟩
  · rintro ⟨fuel, answer, hanswer⟩
    exact hstart.exists_upTo hjv hanswer
  · intro fuel fuel' final final' result result' hfinal hfinal'
    obtain ⟨hresult, fuel'', last, hlast, hsame⟩ := hstart.upTo hjv hfinal
    cases Run.upTo_unique hfinal' hlast
    exact ⟨hresult, rfl, hsame⟩

end Machine

end LineAssembly
