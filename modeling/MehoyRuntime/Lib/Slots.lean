import Mathlib.Data.List.Basic
import Mathlib.Data.List.Perm.Basic
import Mathlib.Logic.Function.Basic

/-!
# Lists of slots

A list addressed by position, one position rewritten at a time. Where the entries are
summarised by a partial function `f`, the lemmas say how the collected summaries change
when the rewritten entry gains, loses or keeps one. A function that is rewritten at one
place is read in the same way.
-/

namespace Slots
variable {α β : Type*} {l : List α} {i : ℕ} {x y : α}

theorem perm_getElem (h : l[i]? = some x) : l.Perm (x :: l.eraseIdx i) := by
  obtain ⟨hi, rfl⟩ := List.getElem?_eq_some_iff.mp h
  exact (List.getElem_cons_eraseIdx_perm hi).symm

theorem perm_set (h : l[i]? = some x) (y : α) : (l.set i y).Perm (y :: l.eraseIdx i) := by
  obtain ⟨hi, -⟩ := List.getElem?_eq_some_iff.mp h
  exact List.set_perm_cons_eraseIdx hi y

theorem filterMap_gain {f : α → Option β} {b : β} (h : l[i]? = some x) (hx : f x = none)
    (hy : f y = some b) : ((l.set i y).filterMap f).Perm (b :: l.filterMap f) := by
  have h1 := (perm_set h y).filterMap f
  have h2 := (perm_getElem h).filterMap f
  rw [List.filterMap_cons_some hy] at h1
  rw [List.filterMap_cons_none hx] at h2
  exact h1.trans (h2.symm.cons b)

theorem filterMap_lose {f : α → Option β} {b : β} (h : l[i]? = some x) (hx : f x = some b)
    (hy : f y = none) : (l.filterMap f).Perm (b :: (l.set i y).filterMap f) := by
  have h1 := (perm_set h y).filterMap f
  have h2 := (perm_getElem h).filterMap f
  rw [List.filterMap_cons_none hy] at h1
  rw [List.filterMap_cons_some hx] at h2
  exact h2.trans (h1.symm.cons b)

theorem filterMap_keep {f : α → Option β} (h : l[i]? = some x) (hxy : f x = f y) :
    (l.set i y).filterMap f = l.filterMap f := by
  induction l generalizing i with
  | nil => simp at h
  | cons a as ih =>
    cases i with
    | zero =>
      obtain rfl : a = x := by simpa using h
      simp only [List.set_cons_zero, List.filterMap_cons, hxy]
    | succ n =>
      have htail := ih (i := n) (by simpa using h)
      simp only [List.set_cons_succ, List.filterMap_cons, htail]

theorem get_set_self (h : l[i]? = some x) (y : α) : (l.set i y)[i]? = some y := by
  obtain ⟨hi, -⟩ := List.getElem?_eq_some_iff.mp h
  exact List.getElem?_set_self hi

theorem eq_of_get_set {l' : List α} {z : α} (h : l[i]? = some x) (hl : l' = l)
    (hz : (l'.set i y)[i]? = some z) : y = z := by
  rw [hl, get_set_self h] at hz
  exact Option.some.inj hz

theorem get_set_cases {j : ℕ} {z : α} (h : (l.set i y)[j]? = some z) :
    (j = i ∧ z = y) ∨ (j ≠ i ∧ l[j]? = some z) := by
  rcases eq_or_ne j i with rfl | hne
  · rw [List.getElem?_set, if_pos rfl] at h
    split at h
    · exact .inl ⟨rfl, (Option.some.inj h).symm⟩
    · cases h
  · rw [List.getElem?_set_ne hne.symm] at h
    exact .inr ⟨hne, h⟩

theorem update_cases {κ : Type*} [DecidableEq κ] {f : κ → α} {k other : κ}
    (h : Function.update f k x other = y) : (other = k ∧ x = y) ∨ (other ≠ k ∧ f other = y) := by
  rw [Function.update_apply] at h
  split at h
  · exact .inl ⟨‹_›, h⟩
  · exact .inr ⟨‹_›, h⟩

theorem get_push_cases {j : ℕ} {z : α} (h : (l ++ [y])[j]? = some z) :
    (j = l.length ∧ z = y) ∨ l[j]? = some z := by
  rcases Nat.lt_or_ge j l.length with hlt | hge
  · rw [List.getElem?_append_left hlt] at h
    exact .inr h
  · rw [List.getElem?_append_right hge] at h
    obtain ⟨hj, hz⟩ := List.getElem?_eq_some_iff.mp h
    simp only [List.length_singleton] at hj
    have h0 : j - l.length = 0 := by omega
    simp only [h0, List.getElem_cons_zero] at hz
    exact .inl ⟨by omega, hz.symm⟩

theorem get_push_of_get {j : ℕ} {z : α} (h : l[j]? = some z) (y : α) :
    (l ++ [y])[j]? = some z := by
  obtain ⟨hj, -⟩ := List.getElem?_eq_some_iff.mp h
  rw [List.getElem?_append_left hj, h]

theorem set_push (l : List α) (x y : α) : (l ++ [x]).set l.length y = l ++ [y] := by
  rw [List.set_append_right l.length y (Nat.le_refl _), Nat.sub_self, List.set_cons_zero]

end Slots
