import LineAssembly.Source.Reading

/-! # Readings of texts that follow one another

Reading is compositional: the reading of some lines and then others is the one followed by the other,
which starts at the line number and the token index that the first has reached.
-/

set_option autoImplicit false

namespace LineAssembly

def Note.error? : Note → Option Diagnostic
  | .error d => some d
  | .trace _ => none

namespace Reading

variable {known : String → Bool}

/-- The errors among the notes, in their order. -/
def errors (r : Reading) : List Diagnostic :=
  r.notes.filterMap Note.error?

theorem andThen_of_fault? {first : Reading} {fault : Fault} (h : first.fault? = some fault)
    (second : Reading) : first.andThen second = first := by
  simp [andThen, h]

theorem andThen_of_none {first : Reading} (h : first.fault? = none) (second : Reading) :
    first.andThen second =
      ⟨first.tokens ++ second.tokens, first.bindings ++ second.bindings,
        first.notes ++ second.notes, second.fault?⟩ := by
  simp [andThen, h]

theorem andThen_empty (r : Reading) : r.andThen {} = r := by
  obtain ⟨tokens, bindings, notes, fault?⟩ := r
  cases fault? <;> simp [andThen]

theorem andThen_assoc (a b c : Reading) : (a.andThen b).andThen c = a.andThen (b.andThen c) := by
  cases ha : a.fault? with
  | some fault => rw [andThen_of_fault? ha, andThen_of_fault? ha, andThen_of_fault? ha]
  | none => cases hb : b.fault? <;> simp [andThen, ha, hb]

theorem fault?_andThen {first second : Reading} (h : (first.andThen second).fault? = none) :
    first.fault? = none ∧ second.fault? = none := by
  cases hfirst : first.fault? with
  | some fault =>
    rw [andThen_of_fault? hfirst, hfirst] at h
    cases h
  | none =>
    rw [andThen_of_none hfirst] at h
    exact ⟨rfl, h⟩

theorem errors_andThen {first : Reading} (h : first.fault? = none) (second : Reading) :
    (first.andThen second).errors = first.errors ++ second.errors := by
  rw [andThen_of_none h]
  exact List.filterMap_append

/-- Where a fault ends the first lines, neither side reads the others. -/
theorem ofLines_append (line index : Nat) (ls others : List (List Char)) :
    ofLines known line index (ls ++ others) =
      (ofLines known line index ls).andThen
        (ofLines known (line + ls.length) (index + (ofLines known line index ls).tokens.length)
          others) := by
  induction ls generalizing line index with
  | nil => rfl
  | cons text rest ih =>
    rw [List.cons_append, ofLines, ofLines]
    cases hfirst : (ofLine known line index (Line.ofText text)).fault? with
    | some fault => simp only [andThen_of_fault? hfirst]
    | none =>
      simp only [ih]
      rw [andThen_assoc, andThen_of_none hfirst (ofLines _ _ _ rest)]
      simp only [List.length_append, List.length_cons]
      rw [Nat.add_right_comm line 1, Nat.add_assoc line, Nat.add_assoc index]

/-- Whatever instructions are known and wherever the lines stand in a source, they give these tokens and
bindings, and no fault. -/
def Yields (ls : List (List Char)) (base : Nat) (ts : List Token) (bs : List (String × Nat)) : Prop :=
  ∀ known line, (ofLines known line base ls).tokens = ts ∧
    (ofLines known line base ls).bindings = bs ∧ (ofLines known line base ls).fault? = none

theorem yields_nil (base : Nat) : Yields [] base [] [] :=
  fun _ _ => ⟨rfl, rfl, rfl⟩

theorem yields_singleton {text : List Char} {base : Nat} {ts : List Token}
    {bs : List (String × Nat)}
    (h : ∀ known line, (ofLine known line base (Line.ofText text)).tokens = ts ∧
      (ofLine known line base (Line.ofText text)).bindings = bs ∧
        (ofLine known line base (Line.ofText text)).fault? = none) : Yields [text] base ts bs := by
  intro known line
  have hone : ofLines known line base [text] = ofLine known line base (Line.ofText text) :=
    andThen_empty _
  rw [hone]
  exact h known line

theorem Yields.append {ls others : List (List Char)} {base : Nat} {ts ts' : List Token}
    {bs bs' : List (String × Nat)} (h : Yields ls base ts bs)
    (h' : Yields others (base + ts.length) ts' bs') :
    Yields (ls ++ others) base (ts ++ ts') (bs ++ bs') := by
  intro known line
  obtain ⟨hts, hbs, hfault⟩ := h known line
  obtain ⟨hts', hbs', hfault'⟩ := h' known (line + ls.length)
  rw [ofLines_append, hts, andThen_of_none hfault, hts', hbs', hts, hbs]
  exact ⟨rfl, rfl, hfault'⟩

theorem ofArguments_of_no_fault {line : Nat} {arguments : List Argument}
    (h : ∀ a ∈ arguments, a.fault? line = none) :
    (ofArguments line arguments).tokens = arguments.map Argument.token ++ [.statementEnd] ∧
      (ofArguments line arguments).bindings = [] ∧ (ofArguments line arguments).fault? = none := by
  induction arguments with
  | nil => exact ⟨rfl, rfl, rfl⟩
  | cons a rest ih =>
    have ha : a.fault? line = none := h a List.mem_cons_self
    obtain ⟨hts, hbs, hfault⟩ := ih (fun x hx => h x (List.mem_cons_of_mem _ hx))
    have hfirst : (ofArgument line a).fault? = none := by simp [ofArgument, ha]
    rw [ofArguments, andThen_of_none hfirst]
    simp [ofArgument, ha, hts, hbs, hfault]

theorem fault?_of_mem_arguments {line : Nat} {arguments : List Argument}
    (h : (ofArguments line arguments).fault? = none) : ∀ a ∈ arguments, a.fault? line = none := by
  induction arguments with
  | nil => exact List.forall_mem_nil _
  | cons a rest ih =>
    obtain ⟨hfirst, hrest⟩ := fault?_andThen h
    refine List.forall_mem_cons.mpr ⟨?_, ih hrest⟩
    cases ha : a.fault? line with
    | none => rfl
    | some fault => simp [ofArgument, ha] at hfirst

theorem errors_ofArguments {line : Nat} {arguments : List Argument}
    (h : ∀ a ∈ arguments, a.fault? line = none) :
    (ofArguments line arguments).errors =
      (arguments.filterMap Argument.error?).map (Diagnostic.line line) := by
  induction arguments with
  | nil => rfl
  | cons a rest ih =>
    have ha : a.fault? line = none := h a List.mem_cons_self
    have hfirst : (ofArgument line a).errors = (a.error?.map (Diagnostic.line line)).toList := by
      rw [ofArgument, ha, errors]
      cases a.error? <;> cases a.trace? line <;> rfl
    rw [ofArguments, errors_andThen (by simp [ofArgument, ha]), hfirst,
      ih fun x hx => h x (List.mem_cons_of_mem _ hx), List.filterMap_cons]
    cases a.error? <;> rfl

end Reading

end LineAssembly
