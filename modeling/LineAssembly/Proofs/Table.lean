import LineAssembly.Table
import Mathlib.Data.List.Induction
import Mathlib.Data.List.Nodup

/-! # Look-ups in tables built by binding -/

set_option autoImplicit false

namespace LineAssembly.Table

variable {α : Type}

theorem get?_append (t u : Table α) (name : String) :
    get? (t ++ u) name = (get? t name).or (get? u name) := by
  induction t with
  | nil => rfl
  | cons head rest ih =>
    rw [List.cons_append, get?, get?]
    split
    · rfl
    · exact ih

theorem get?_put (t : Table α) (name other : String) (a : α) :
    (t.put name a).get? other = if name = other then some a else t.get? other := by
  by_cases h : name = other
  · rw [if_pos h, ← h, get?_put_self]
  · rw [if_neg h, get?_put_of_ne t a h]

theorem has_put_eq_false_iff {t : Table α} {name other : String} {a : α} :
    has (t.put name a) other = false ↔ other ≠ name ∧ t.has other = false := by
  rw [has, get?_put, has]
  split_ifs with hsame
  · simp [hsame]
  · simp [Ne.symm hsame]

/-- Of several bindings of a name the last one counts. -/
theorem get?_putAll (t : Table α) (bindings : List (String × α)) (name : String) :
    (t.putAll bindings).get? name = (get? bindings.reverse name).or (t.get? name) := by
  induction bindings generalizing t with
  | nil => rfl
  | cons b rest ih =>
    have hstep : t.putAll (b :: rest) = (t.put b.1 b.2).putAll rest := rfl
    rw [hstep, ih, List.reverse_cons, get?_append, get?_put]
    simp only [get?]
    cases get? rest.reverse name <;> by_cases h : b.1 = name <;> simp [h]

theorem mem_of_get? {t : Table α} {name : String} {a : α} (h : t.get? name = some a) :
    (name, a) ∈ t := by
  induction t with
  | nil => cases h
  | cons head rest ih =>
    rw [get?] at h
    split at h
    · rename_i hkey
      cases h
      rw [← hkey]
      exact List.mem_cons_self
    · exact List.mem_cons_of_mem _ (ih h)

theorem eq_of_nodup_names {t : Table α} (h : t.names.Nodup) {name : String} {a b : α}
    (ha : (name, a) ∈ t) (hb : (name, b) ∈ t) : a = b :=
  congrArg Prod.snd (List.inj_on_of_nodup_map h ha hb rfl)

theorem get?_eq_some_iff {t : Table α} (hf : ∀ n a b, (n, a) ∈ t → (n, b) ∈ t → a = b)
    {name : String} {a : α} : t.get? name = some a ↔ (name, a) ∈ t := by
  constructor
  · exact mem_of_get?
  · intro hmem
    have hsome : (t.get? name).isSome = true := by
      change t.has name = true
      rw [has_iff_mem_names]
      exact List.mem_map.mpr ⟨(name, a), hmem, rfl⟩
    obtain ⟨b, hb⟩ := Option.isSome_iff_exists.mp hsome
    rw [hb, hf name b a (mem_of_get? hb) hmem]

theorem get?_putAll_eq_some_iff {bindings : List (String × α)}
    (hf : ∀ n a b, (n, a) ∈ bindings → (n, b) ∈ bindings → a = b) {name : String} {a : α} :
    (putAll [] bindings).get? name = some a ↔ (name, a) ∈ bindings := by
  have hnone : get? ([] : Table α) name = none := rfl
  have hreverse : ∀ n a b, (n, a) ∈ bindings.reverse → (n, b) ∈ bindings.reverse → a = b := by
    simpa only [List.mem_reverse] using hf
  rw [get?_putAll, hnone, Option.or_none, get?_eq_some_iff hreverse, List.mem_reverse]

theorem mem_put {t : Table α} {name : String} {a : α} {b : String × α} (h : b ∈ t.put name a) :
    b ∈ t ∨ b = (name, a) := by
  induction t with
  | nil => exact .inr (List.mem_singleton.mp h)
  | cons head rest ih =>
    rw [put] at h
    split at h
    · rename_i hkey
      rcases List.mem_cons.mp h with h | h
      · exact .inr (by rw [h, hkey])
      · exact .inl (List.mem_cons_of_mem _ h)
    · rcases List.mem_cons.mp h with h | h
      · exact .inl (by rw [h]; exact List.mem_cons_self)
      · exact (ih h).imp_left (List.mem_cons_of_mem _)

theorem mem_putAll {t : Table α} {bindings : List (String × α)} {b : String × α}
    (h : b ∈ t.putAll bindings) : b ∈ t ∨ b ∈ bindings := by
  induction bindings generalizing t with
  | nil => exact .inl h
  | cons first rest ih =>
    rcases ih h with h | h
    · exact (mem_put h).imp_right fun he => by rw [he]; exact List.mem_cons_self
    · exact .inr (List.mem_cons_of_mem _ h)

theorem nodup_names_put {t : Table α} (h : t.names.Nodup) (name : String) (a : α) :
    (t.put name a).names.Nodup := by
  rw [names_put]
  split
  · exact h
  · rename_i hnew
    refine List.nodup_append.mpr ⟨h, List.nodup_singleton name, fun x hx y hy => ?_⟩
    rw [List.mem_singleton.mp hy]
    exact fun he => hnew (he ▸ hx)

theorem nodup_names_putAll {t : Table α} (h : t.names.Nodup) (bindings : List (String × α)) :
    (t.putAll bindings).names.Nodup := by
  induction bindings generalizing t with
  | nil => exact h
  | cons first rest ih => exact ih (nodup_names_put h first.1 first.2)

theorem names_fill (t : Table α) (a : α) : names (t.fill a) = t.names := by
  simp [names, fill]

/-- A new name goes to the end. -/
theorem put_of_not_mem {t : Table α} {name : String} (h : name ∉ t.names) (a : α) :
    t.put name a = t ++ [(name, a)] := by
  induction t with
  | nil => rfl
  | cons head rest ih =>
    obtain ⟨hhead, hrest⟩ := not_or.mp (mt List.mem_cons.mpr h)
    rw [put, if_neg (Ne.symm hhead), ih hrest]
    rfl

theorem put_put (t : Table α) (name : String) (a b : α) : (t.put name a).put name b = t.put name b := by
  induction t with
  | nil => simp [put]
  | cons head rest ih =>
    obtain ⟨key, c⟩ := head
    by_cases h : key = name <;> simp [put, h, ih]

/-- A name that is there already keeps its place, so it may be bound before or after another. -/
theorem put_comm {t : Table α} {name other : String} (hmem : name ∈ t.names) (hne : other ≠ name)
    (a b : α) : (t.put other b).put name a = (t.put name a).put other b := by
  induction t with
  | nil => cases hmem
  | cons head rest ih =>
    obtain ⟨key, c⟩ := head
    by_cases hname : key = name
    · have hother : key ≠ other := fun he => hne (he.symm.trans hname)
      simp [put, hname, hname ▸ hother]
    · have hrest : name ∈ names rest := (List.mem_cons.mp hmem).resolve_left (Ne.symm hname)
      by_cases hother : key = other
      · simp [put, hother, hother ▸ hname]
      · simp [put, hname, hother, ih hrest]

theorem put_putAll {t : Table α} {bindings : List (String × α)} {name : String}
    (hmem : name ∈ t.names) (hnew : name ∉ names bindings) (a : α) :
    (t.putAll bindings).put name a = (t.put name a).putAll bindings := by
  induction bindings generalizing t with
  | nil => rfl
  | cons b rest ih =>
    have hne : b.1 ≠ name := fun he => hnew (by simp [names, he])
    have hrest : name ∉ names rest := fun hm => hnew (List.mem_cons_of_mem _ hm)
    have hstill : name ∈ (t.put b.1 b.2).names := by
      rw [names_put]
      split
      · exact hmem
      · exact List.mem_append_left _ hmem
    change ((t.put b.1 b.2).putAll rest).put name a = ((t.put name a).put b.1 b.2).putAll rest
    rw [ih hstill hrest, put_comm hmem hne]

theorem putAll_put {t u : Table α} (hu : u.names.Nodup) (name : String) (a : α) :
    t.putAll (u.put name a) = (t.putAll u).put name a := by
  induction u generalizing t with
  | nil => rfl
  | cons head rest ih =>
    obtain ⟨key, b⟩ := head
    obtain ⟨hkey, hrest⟩ := List.nodup_cons.mp hu
    rw [put]
    split
    · rename_i h
      subst h
      have hbound : key ∈ (t.put key b).names := by
        rw [← has_iff_mem_names, has, get?_put_self]
        rfl
      change (t.put key a).putAll rest = ((t.put key b).putAll rest).put key a
      rw [put_putAll hbound hkey, put_put]
    · exact ih hrest

/-- Bindings may be made into a table of their own first. -/
theorem putAll_putAll (t : Table α) (bindings : List (String × α)) :
    t.putAll (putAll [] bindings) = t.putAll bindings := by
  induction bindings using List.reverseRecOn with
  | nil => rfl
  | append_singleton bindings b ih =>
    have hlast (u : Table α) : u.putAll (bindings ++ [b]) = (u.putAll bindings).put b.1 b.2 :=
      List.foldl_concat ..
    rw [hlast, hlast, putAll_put (nodup_names_putAll (t := []) List.nodup_nil bindings), ih]

theorem putAll_append (t : Table α) (bindings others : List (String × α)) :
    t.putAll (bindings ++ others) = (t.putAll bindings).putAll others :=
  List.foldl_append

/-- The same names in the same order, with every entry changed by a function. -/
def mapEntries {β : Type} (f : α → β) (t : Table α) : Table β :=
  t.map fun b => (b.1, f b.2)

theorem get?_mapEntries {β : Type} (f : α → β) (t : Table α) (name : String) :
    (mapEntries f t).get? name = (t.get? name).map f := by
  induction t with
  | nil => rfl
  | cons head rest ih =>
    simp only [mapEntries] at ih
    by_cases h : head.1 = name <;> simp [get?, mapEntries, h, ih]

theorem has_mapEntries {β : Type} (f : α → β) (t : Table α) (name : String) :
    (mapEntries f t).has name = t.has name := by
  rw [has, has, get?_mapEntries, Option.isSome_map]

theorem mapEntries_put {β : Type} (f : α → β) (t : Table α) (name : String) (a : α) :
    mapEntries f (t.put name a) = (mapEntries f t).put name (f a) := by
  induction t with
  | nil => rfl
  | cons head rest ih =>
    obtain ⟨key, b⟩ := head
    simp only [mapEntries] at ih
    by_cases h : key = name <;> simp [put, mapEntries, h, ih]

theorem mapEntries_putAll {β : Type} (f : α → β) (t : Table α) (bindings : List (String × α)) :
    mapEntries f (t.putAll bindings) = (mapEntries f t).putAll (mapEntries f bindings) := by
  induction bindings generalizing t with
  | nil => rfl
  | cons b rest ih =>
    change mapEntries f ((t.put b.1 b.2).putAll rest) = _
    rw [ih, mapEntries_put]
    rfl

end LineAssembly.Table
