/-! # Tables in insertion order

A table binds names to entries. A name that is bound again keeps its place and changes its entry; a new
name goes to the end.
-/

set_option autoImplicit false

namespace LineAssembly

abbrev Table (α : Type) := List (String × α)

namespace Table

variable {α : Type}

def get? : Table α → String → Option α
  | [], _ => none
  | (key, a) :: rest, name => if key = name then some a else get? rest name

def has (t : Table α) (name : String) : Bool :=
  (t.get? name).isSome

def put : Table α → String → α → Table α
  | [], name, a => [(name, a)]
  | (key, b) :: rest, name, a => if key = name then (key, a) :: rest else (key, b) :: put rest name a

def names (t : Table α) : List String :=
  t.map Prod.fst

def putAll (t : Table α) (bindings : List (String × α)) : Table α :=
  bindings.foldl (fun t b => t.put b.1 b.2) t

/-- The same names in the same order, all bound to one entry. -/
def fill (t : Table α) (a : α) : Table α :=
  t.map (fun binding => (binding.1, a))

theorem get?_put_self (t : Table α) (name : String) (a : α) : (t.put name a).get? name = some a := by
  induction t with
  | nil => simp [put, get?]
  | cons head rest ih =>
    obtain ⟨key, b⟩ := head
    by_cases h : key = name <;> simp [put, get?, h, ih]

theorem get?_put_of_ne (t : Table α) {name other : String} (a : α) (hne : name ≠ other) :
    (t.put name a).get? other = t.get? other := by
  induction t with
  | nil => simp [put, get?, hne]
  | cons head rest ih =>
    obtain ⟨key, b⟩ := head
    by_cases h : key = name
    · subst h
      simp [put, get?, hne]
    · simp only [put, if_neg h, get?, ih]

theorem has_iff_mem_names (t : Table α) (name : String) : t.has name = true ↔ name ∈ t.names := by
  induction t with
  | nil => simp [has, get?, names]
  | cons head rest ih =>
    obtain ⟨key, b⟩ := head
    by_cases h : key = name
    · simp [has, get?, names, h]
    · have hne : name ≠ key := fun he => h he.symm
      simpa [has, get?, names, h, hne] using ih

/-- Binding a name that is already there changes no name; a new name goes to the end. -/
theorem names_put (t : Table α) (name : String) (a : α) :
    (t.put name a).names = if name ∈ t.names then t.names else t.names ++ [name] := by
  induction t with
  | nil => simp [put, names]
  | cons head rest ih =>
    obtain ⟨key, b⟩ := head
    by_cases h : key = name
    · simp [put, names, h]
    · have hne : name ≠ key := fun he => h he.symm
      simp only [names] at ih
      by_cases hm : name ∈ rest.map Prod.fst <;> simp [put, names, h, hne, ih, hm]

end Table

end LineAssembly
