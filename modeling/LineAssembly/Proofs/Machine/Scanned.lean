import LineAssembly.Proofs.Machine.Choice
import LineAssembly.Proofs.Machine.FailStop
import LineAssembly.Proofs.Source.Lines

/-! # Messages that a source cannot cause

A run can be given any tokens, and has messages for tokens that no source gives. A scan without errors
knows every mnemonic, closes every statement before the next mnemonic and never gives a reference as a
value. Jumps may lead anywhere, also into a statement, but while an instruction is pending no jump is
made, so the cursor is then inside the statement of that instruction. Main statement: interpreting a source
on the standard instructions never reports one of those messages.
-/

set_option autoImplicit false

namespace LineAssembly

open Listing (stillOpen stillOpen_take_succ)

/-- A message about tokens that no source gives, or about an integer that no arithmetic stores. -/
def Diagnostic.isForeign : Diagnostic → Bool
  | .token _ (.clash ..) => true
  | .token _ (.unknownInstruction _) => true
  | .undefinedRegister _ => true
  | .integerOutOfRange _ => true
  | _ => false

theorem Instruction.isForeign_of_effect_eq_fail {i : Instruction} (h : i ∈ standard)
    {registers : Table Value} {labels : Table Nat} {arguments : List Value} {d : Diagnostic}
    (hresolve : ∀ v ∈ arguments, (v.resolve registers).isSome = true)
    (hfail : i.effect registers labels arguments = .fail d) : d.isForeign = false := by
  rcases diagnostic_of_effect_eq_fail h hfail with hoperands | rfl
  · cases hoperands with
    | undefinedRegister mem absent =>
      have hsome := hresolve _ mem
      rw [absent] at hsome
      cases hsome
    | notInteger | notDestination | invalidLabel | invalidDestination => rfl
  · rfl

/-- Every message that was added is one that a source can cause. -/
def Machine.WithoutForeign (m later : Machine) : Prop :=
  ∃ reported : List Diagnostic, later.diagnostics.toList = m.diagnostics.toList ++ reported ∧
    ∀ d ∈ reported, d.isForeign = false

namespace Machine.WithoutForeign

variable {m later third : Machine}

theorem of_eq (h : later.diagnostics = m.diagnostics) : m.WithoutForeign later :=
  ⟨[], by rw [h, List.append_nil], List.forall_mem_nil _⟩

theorem of_push {d : Diagnostic} (h : later.diagnostics = m.diagnostics.push d)
    (hd : d.isForeign = false) : m.WithoutForeign later :=
  ⟨[d], by rw [h, Array.toList_push], List.forall_mem_singleton.mpr hd⟩

theorem trans (h : m.WithoutForeign later) (h' : later.WithoutForeign third) :
    m.WithoutForeign third := by
  obtain ⟨reported, hdiagnostics, hreported⟩ := h
  obtain ⟨others, hdiagnostics', hothers⟩ := h'
  refine ⟨reported ++ others, ?_, ?_⟩
  · rw [hdiagnostics', hdiagnostics, List.append_assoc]
  · exact List.forall_mem_append.mpr ⟨hreported, hothers⟩

theorem continued {r : Run} {e : Effect} (h : ∀ d, e = .fail d → d.isForeign = false) :
    r.machine.WithoutForeign (Run.continued (e.apply r.ready)).machine := by
  cases e with
  | fail d => exact of_push rfl (h d rfl)
  | pass | store | emit | goto | stop => exact of_eq rfl

end Machine.WithoutForeign

/-- What a scan without errors promises of its tokens. -/
structure Clean (ts : List Token) : Prop where
  uninterrupted : Uninterrupted ts
  known : ∀ name, .instruction name ∈ ts → Machine.standard.instructions.has name = true
  values : ∀ v registers, .value v ∈ ts → (v.resolve registers).isSome = true

theorem Machine.clean_scan {m : Machine} {source : String} {ts : List Token}
    (hstandard : m.IsStandard) (h : (m.scan source).2 = .ok ts)
    (hclean : (m.scan source).1.errorCount = m.errorCount) : Clean ts where
  uninterrupted := uninterrupted_scan h
  known name hmem := by
    have hknown := has_of_mem_scan h (errors_eq_nil_of_errorCount hclean) hmem
    rwa [Table.has, hstandard] at hknown
  values v registers hmem := by
    have hwritable := (scan_spec h).1 _ hmem
    cases v with
    | int | label => rfl
    | register | empty => exact hwritable.elim

namespace Run

variable {ts : List Token} {r next : Run}

/-- While an instruction is pending the cursor is inside a statement, and every operand has a value. -/
structure Orderly (ts : List Token) (r : Run) : Prop extends Standard r where
  inside : r.pending.isSome = true → stillOpen false (ts.take r.machine.cursor) = true
  operands : ∀ v ∈ r.operands, (v.resolve r.machine.registers).isSome = true

theorem Orderly.collect {v : Value} {token : Token} (h : Orderly ts r)
    (htoken : ts[r.machine.cursor]? = some token) (hopen : stillOpen true [token] = true)
    (hpending : r.pending.isSome = true) (hv : (v.resolve r.machine.registers).isSome = true) :
    Orderly ts (r.after (.collect v)) where
  machine := h.machine
  pending := h.pending
  inside _ := (stillOpen_take_succ false htoken).trans (by rw [h.inside hpending, hopen])
  operands := List.forall_mem_append.mpr ⟨h.operands, List.forall_mem_singleton.mpr hv⟩

theorem Orderly.refuse (h : Orderly ts r) (error : TokenError) : Orderly ts (r.after (.refuse error)) :=
  ⟨⟨h.machine, h.pending⟩, h.inside, h.operands⟩

/-- Without a pending instruction the cursor may stand anywhere. -/
theorem orderly_of_idle (hmachine : next.machine.IsStandard) (hpending : next.pending = none)
    (hoperands : ∀ v ∈ next.operands, (v.resolve next.machine.registers).isSome = true) :
    Orderly ts next := by
  refine ⟨⟨hmachine, ?_⟩, ?_, hoperands⟩
  · rw [hpending]
    exact idle_pending
  · rw [hpending]
    nofun

theorem Orderly.finish {i : Instruction} (h : Orderly ts r) (hpending : r.pending = some i) :
    Orderly ts (r.after (.finish i)) ∧ r.machine.WithoutForeign (r.after (.finish i)).machine := by
  constructor
  · refine orderly_of_idle ?_ rfl (List.forall_mem_nil _)
    rw [after]
    cases i.effect r.machine.registers r.machine.labels r.operands <;> exact h.machine
  · exact .continued fun d hfail =>
      Instruction.isForeign_of_effect_eq_fail (h.pending i hpending) h.operands hfail

theorem Orderly.choose (hts : Clean ts) (h : Orderly ts r) {token : Token}
    (htoken : ts[r.machine.cursor]? = some token) :
    Orderly ts (r.after (r.choose token)) ∧
      r.machine.WithoutForeign (r.after (r.choose token)).machine := by
  have hmem := List.mem_of_getElem? htoken
  cases token with
  | instruction name =>
    have hclosed := hts.uninterrupted r.machine.cursor name htoken
    cases hpending : r.pending with
    | some i =>
      have hinside := h.inside (by rw [hpending]; rfl)
      rw [hclosed] at hinside
      cases hinside
    | none =>
      obtain ⟨i, hi⟩ := Option.isSome_iff_exists.mp (hts.known name hmem)
      have hchoose : r.choose (.instruction name) = .start i := by
        simp only [Run.choose, hpending, h.machine name, hi]
      rw [hchoose]
      refine ⟨⟨⟨h.machine, ?_⟩, fun _ => stillOpen_take_succ false htoken, List.forall_mem_nil _⟩,
        .of_eq rfl⟩
      rintro j ⟨⟩
      exact (h.machine.mem ((h.machine name).trans hi)).1
  | value v =>
    cases hpending : r.pending with
    | some i =>
      simp only [Run.choose, hpending]
      exact ⟨h.collect htoken rfl (by rw [hpending]; rfl) (hts.values v _ hmem), .of_eq rfl⟩
    | none =>
      simp only [Run.choose, hpending]
      exact ⟨h.refuse _, .of_push rfl rfl⟩
  | register name =>
    cases hpending : r.pending with
    | some i =>
      simp only [Run.choose, hpending]
      split
      · rename_i hdeclared
        exact ⟨h.collect htoken rfl (by rw [hpending]; rfl) hdeclared, .of_eq rfl⟩
      · exact ⟨h.refuse _, .of_push rfl rfl⟩
    | none =>
      simp only [Run.choose, hpending]
      exact ⟨orderly_of_idle h.machine hpending h.operands, .of_push rfl rfl⟩
  | statementEnd =>
    cases hpending : r.pending with
    | some i =>
      simp only [Run.choose, hpending]
      exact h.finish hpending
    | none =>
      simp only [Run.choose, hpending]
      exact ⟨orderly_of_idle h.machine hpending h.operands, .of_eq rfl⟩

theorem Orderly.step (hts : Clean ts) (h : Orderly ts r) (hstep : r.step ts.toArray = .next next) :
    Orderly ts next ∧ r.machine.WithoutForeign next.machine := by
  obtain ⟨-, token, htoken, htake⟩ := exists_token_of_step hstep
  rw [take_eq_after h.pending] at htake
  cases htake
  rw [List.getElem?_toArray] at htoken
  exact h.choose hts htoken

theorem Orderly.steps (hts : Clean ts) {n : Nat} (hsteps : Steps ts.toArray n r next)
    (h : Orderly ts r) : Orderly ts next ∧ r.machine.WithoutForeign next.machine := by
  induction hsteps with
  | refl r => exact ⟨h, .of_eq rfl⟩
  | head first _ ih =>
    obtain ⟨hnext, hfirst⟩ := h.step hts first
    obtain ⟨hlast, hrest⟩ := ih hnext
    exact ⟨hlast, hfirst.trans hrest⟩

end Run

namespace Reading

variable {known : String → Bool}

theorem mem_errors_andThen {a b : Reading} {d : Diagnostic} (h : d ∈ (a.andThen b).errors) :
    d ∈ a.errors ∨ d ∈ b.errors := by
  cases hfault : a.fault? with
  | some fault =>
    rw [andThen_of_fault? hfault] at h
    exact .inl h
  | none =>
    rw [errors_andThen hfault] at h
    exact List.mem_append.mp h

theorem line_of_mem_ofArguments {line : Nat} {arguments : List Argument} {d : Diagnostic}
    (h : d ∈ (ofArguments line arguments).errors) : ∃ e, d = .line line e := by
  induction arguments with
  | nil => cases h
  | cons a rest ih =>
    rcases mem_errors_andThen h with h | h
    · cases a with
      | absent | outOfRange => exact ⟨_, List.mem_singleton.mp h⟩
      | literal | unreadable | label | register | quoted | malformed => cases h
    · exact ih h

theorem line_of_mem_ofLine {line index : Nat} {l : Line} {d : Diagnostic}
    (h : d ∈ (ofLine known line index l).errors) : ∃ e, d = .line line e := by
  cases l with
  | blank => cases h
  | label name shared =>
    rw [ofLine, ofLabel] at h
    split_ifs at h
    · exact ⟨_, List.mem_singleton.mp h⟩
    · exact ⟨_, List.mem_singleton.mp h⟩
    · exact ⟨_, List.mem_singleton.mp h⟩
    · cases h
  | statement mnemonic arguments =>
    rcases mem_errors_andThen h with h | h
    · rw [ofMnemonic] at h
      split at h
      · cases h
      · exact ⟨_, List.mem_singleton.mp h⟩
    · exact line_of_mem_ofArguments h

theorem line_of_mem_ofLines {line index : Nat} {ls : List (List Char)} {d : Diagnostic}
    (h : d ∈ (ofLines known line index ls).errors) : ∃ number e, d = .line number e := by
  induction ls generalizing line index with
  | nil => cases h
  | cons text rest ih =>
    rcases mem_errors_andThen h with h | h
    · exact ⟨line, line_of_mem_ofLine h⟩
    · exact ih h

end Reading

namespace Machine

variable {m : Machine} {source : String}

theorem withoutForeign_scan (m : Machine) (source : String) :
    m.WithoutForeign (m.scan source).1 := by
  refine ⟨_, m.diagnostics_scan source, fun d hd => ?_⟩
  obtain ⟨number, e, rfl⟩ := Reading.line_of_mem_ofLines hd
  rfl

/-- A moment of the run that is made when a source is interpreted. The run need not end. -/
def Interprets (m : Machine) (source : String) (r : Run) : Prop :=
  ∃ ts n, (m.scan source).2 = .ok ts ∧ ¬ m.errorCount < (m.scan source).1.errorCount ∧
    Run.Steps ts.toArray n (m.scan source).1.start r

theorem Interprets.orderly (hstandard : m.IsStandard) (source : String) {ts : List Token} {n : Nat}
    {r : Run} (hscan : (m.scan source).2 = .ok ts)
    (hclean : ¬ m.errorCount < (m.scan source).1.errorCount)
    (hsteps : Run.Steps ts.toArray n (m.scan source).1.start r) :
    r.Orderly ts ∧ m.WithoutForeign r.machine := by
  have hcount := m.errorCount_scan source
  have hts := clean_scan hstandard hscan (by omega)
  have hstart : (m.scan source).1.start.Orderly ts :=
    Run.orderly_of_idle (isStandard_scan hstandard source) rfl (List.forall_mem_nil _)
  obtain ⟨hr, hrun⟩ := hstart.steps hts hsteps
  exact ⟨hr, (m.withoutForeign_scan source).trans ((WithoutForeign.of_eq rfl).trans hrun)⟩

/-- Neither at any moment of the run nor at its end has a message been reported that no source can
cause. -/
theorem interpret_withoutForeign (hstandard : m.IsStandard) (source : String) :
    (∀ r, m.Interprets source r → m.WithoutForeign r.machine) ∧
      ∀ fuel final result, m.interpret fuel source = some (final, result) →
        m.WithoutForeign final := by
  constructor
  · rintro r ⟨ts, n, hscan, hclean, hsteps⟩
    exact (Interprets.orderly hstandard source hscan hclean hsteps).2
  · intro fuel final result h
    have hscanned := m.withoutForeign_scan source
    rw [interpret] at h
    rcases hresult : m.scan source with ⟨scanned, fault | ts⟩
    · rw [hresult] at h hscanned
      cases h
      exact hscanned
    · rw [hresult] at h hscanned
      simp only at h
      split at h
      · cases h
        exact hscanned.trans (.of_eq rfl)
      · rename_i hclean
        obtain ⟨n, last, hsteps, hended⟩ := Run.exists_steps_of_upTo h
        obtain ⟨hlast, hrun⟩ := Interprets.orderly hstandard source (by rw [hresult])
          (by rw [hresult]; exact hclean) (by rw [hresult]; exact hsteps)
        obtain ⟨rfl, -⟩ := Run.eq_of_ended hlast.toStandard hended
        exact hrun

def referring : Machine :=
  { standard with registers := [("a", .register "b")] }

/-- The jump leads behind a mnemonic, and the register holds a reference to one that does not exist. -/
theorem interpret_withoutForeign_inside :
    ∃ final result, referring.interpret 10 "JV 4\nPRINT [a]\nADD [a] 1" = some (final, result) ∧
      final.diagnostics = #[.token 4 (.strayRegister "a"), .notInteger (.register "b")] ∧
      referring.WithoutForeign final := by
  have hrun : (referring.interpret 10 "JV 4\nPRINT [a]\nADD [a] 1").map (·.1.diagnostics) =
      some #[.token 4 (.strayRegister "a"), .notInteger (.register "b")] := by
    decide +kernel
  obtain ⟨⟨final, result⟩, hfinal, hdiagnostics⟩ := Option.map_eq_some_iff.mp hrun
  have hstandard : referring.IsStandard := fun _ => rfl
  exact ⟨final, result, hfinal, hdiagnostics,
    (interpret_withoutForeign hstandard _).2 10 final result hfinal⟩

end Machine

end LineAssembly
