import Mathlib.Algebra.GroupWithZero.Nat
import Mathlib.Data.List.Basic

/-!
# Unsigned 64-bit arithmetic

`saturatingAdd` and `checkedAdd` behave as the operations of those names on an unsigned
64-bit word; a wrapping counter repeats itself only after `2 ^ 64` numbers.
-/

namespace Word

def saturatingAdd (a b : UInt64) : UInt64 :=
  if a.toNat + b.toNat < 2 ^ 64 then a + b else UInt64.ofNat (2 ^ 64 - 1)

def checkedAdd (a b : UInt64) : Option UInt64 :=
  if a.toNat + b.toNat < 2 ^ 64 then some (a + b) else none

theorem toNat_le (a : UInt64) : a.toNat ≤ 2 ^ 64 - 1 := by
  have h := a.toNat_lt
  omega

theorem toNat_add {a b : UInt64} (h : a.toNat + b.toNat < 2 ^ 64) :
    (a + b).toNat = a.toNat + b.toNat := by
  rw [UInt64.toNat_add]
  exact Nat.mod_eq_of_lt h

theorem saturatingAdd_toNat (a b : UInt64) :
    (saturatingAdd a b).toNat = min (a.toNat + b.toNat) (2 ^ 64 - 1) := by
  unfold saturatingAdd
  split
  · rename_i h
    rw [toNat_add h]
    omega
  · rename_i h
    rw [UInt64.toNat_ofNat']
    omega

theorem checkedAdd_eq_some {a b c : UInt64} (h : checkedAdd a b = some c) :
    c.toNat = a.toNat + b.toNat := by
  unfold checkedAdd at h
  split at h
  · rename_i hlt
    rw [← Option.some.inj h]
    exact toNat_add hlt
  · cases h

/-- A saturating sum is the exact one, cut off at the largest word. -/
theorem foldl_saturatingAdd_toNat (l : List UInt64) (a : UInt64) :
    (l.foldl saturatingAdd a).toNat =
      min (a.toNat + (l.map UInt64.toNat).sum) (2 ^ 64 - 1) := by
  induction l generalizing a with
  | nil =>
    have h := toNat_le a
    simp only [List.foldl_nil, List.map_nil, List.sum_nil]
    omega
  | cons b l ih =>
    simp only [List.foldl_cons, List.map_cons, List.sum_cons]
    rw [ih, saturatingAdd_toNat]
    omega

theorem ofNat_toNat_of_lt {n : ℕ} (h : n < 2 ^ 64) : (UInt64.ofNat n).toNat = n := by
  rw [UInt64.toNat_ofNat']
  exact Nat.mod_eq_of_lt h

theorem ofNat_succ (n : ℕ) : UInt64.ofNat n + 1 = UInt64.ofNat (n + 1) := by
  apply UInt64.toNat_inj.mp
  rw [UInt64.toNat_add, UInt64.toNat_ofNat', UInt64.toNat_ofNat']
  simp

/-- Two numbers less than `2 ^ 64` apart are different words. -/
theorem ofNat_ne {m n : ℕ} (h : m < n) (hd : n - m < 2 ^ 64) :
    UInt64.ofNat m ≠ UInt64.ofNat n := by
  intro he
  have h1 := congrArg UInt64.toNat he
  rw [UInt64.toNat_ofNat', UInt64.toNat_ofNat'] at h1
  omega

theorem ofNat_add_wrap (n : ℕ) : UInt64.ofNat (n + 2 ^ 64) = UInt64.ofNat n := by
  apply UInt64.toNat_inj.mp
  rw [UInt64.toNat_ofNat', UInt64.toNat_ofNat']
  omega

end Word
