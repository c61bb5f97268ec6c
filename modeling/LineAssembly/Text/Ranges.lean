/-! # Tables of code point ranges -/

set_option autoImplicit false

namespace LineAssembly.Text

/-- Ranges of code points, both ends included, in ascending order. -/
abbrev Ranges := List (Nat × Nat)

/-- Membership of a code point. The search ends at the first range that starts beyond it. -/
def Ranges.has : Ranges → Nat → Bool
  | [], _ => false
  | (low, high) :: rest, n =>
    if n < low then false else if n ≤ high then true else Ranges.has rest n

theorem Ranges.exists_of_has {table : Ranges} {n : Nat} (h : table.has n = true) :
    ∃ range ∈ table, range.1 ≤ n ∧ n ≤ range.2 := by
  induction table with
  | nil => simp [Ranges.has] at h
  | cons head rest ih =>
    obtain ⟨low, high⟩ := head
    unfold Ranges.has at h
    split at h
    · simp at h
    · split at h
      · exact ⟨(low, high), by simp, by simp only; omega, by simp only; omega⟩
      · obtain ⟨range, hmem, hrange⟩ := ih h
        exact ⟨range, List.mem_cons_of_mem _ hmem, hrange⟩

end LineAssembly.Text
