import Mathlib.Data.List.Perm.Subperm
import Mathlib.Data.List.Range

/-!
# A table of what has been seen

One pass over indices below a bound, with a table of flags that refuses what is not below it
and what it has met before. As many indices as the bound allows are then all of them.
-/

namespace SeenTable

/-- The table marks, among the indices below `n`, those in `used`. -/
structure Marks (n : ℕ) (used : List ℕ) (seen : List Bool) : Prop where
  length : seen.length = n
  marked : ∀ i < n, seen[i]? = some (decide (i ∈ used))

variable {n index : ℕ} {used : List ℕ} {seen : List Bool}

theorem marks_none (n : ℕ) : Marks n [] (List.replicate n false) where
  length := List.length_replicate
  marked i hi := by simp [hi]

theorem Marks.unbounded (h : Marks n used seen) : seen[index]? = none ↔ n ≤ index := by
  rw [List.getElem?_eq_none_iff, h.length]

theorem Marks.fresh (h : Marks n used seen) :
    seen[index]? = some false ↔ index < n ∧ index ∉ used := by
  by_cases hi : index < n
  · simp [h.marked index hi, hi]
  · have hnone : seen[index]? = none := h.unbounded.mpr (by omega)
    simp [hnone, hi]

theorem Marks.mark (h : Marks n used seen) : Marks n (index :: used) (seen.set index true) := by
  constructor
  case length => rw [List.length_set, h.length]
  case marked =>
    intro i hi
    have hlt : i < seen.length := by rw [h.length]; exact hi
    rw [List.getElem?_set]
    by_cases hsame : index = i
    · subst hsame
      simp [hlt]
    · rw [if_neg hsame, h.marked i hi]
      have hne : i ≠ index := fun h => hsame h.symm
      simp [hne]

/-- The pigeonhole: `n` different indices below `n` are all of them. -/
theorem perm_range {indices : List ℕ} (hnodup : indices.Nodup) (hlt : ∀ i ∈ indices, i < n)
    (hlength : indices.length = n) : indices.Perm (List.range n) := by
  have hsub : indices ⊆ List.range n := fun i hi => List.mem_range.mpr (hlt i hi)
  apply (List.subperm_of_subset hnodup hsub).perm_of_length_le
  rw [List.length_range, hlength]

end SeenTable
