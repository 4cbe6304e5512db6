import Mathlib.Data.List.AList
import Mathlib.Data.List.Basic

/-!
# Keyed tables

A hash map with its key order forgotten: Mathlib's association lists with distinct
keys, at a constant value type. Mathlib has the lookup laws; the laws below are about
a table as a collection, which is what counting or summing over one needs.
-/

namespace KeyedTable
universe u v

abbrev Table (κ : Type u) (ν : Type v) := AList fun _ : κ => ν

variable {κ : Type u} {ν : Type v}

def len (t : Table κ ν) : ℕ := t.entries.length

def values (t : Table κ ν) : List ν := t.entries.map fun e => e.2

def retain (p : κ → ν → Bool) (t : Table κ ν) : Table κ ν :=
  ⟨t.entries.filter fun e => p e.1 e.2, t.nodupKeys.sublist List.filter_sublist⟩

theorem values_length (t : Table κ ν) : (values t).length = len t := by
  simp only [values, len, List.length_map]

variable [DecidableEq κ]

theorem values_insert (t : Table κ ν) (k : κ) (x : ν) :
    values (t.insert k x) = x :: values (t.erase k) := rfl

theorem mem_entries_iff {t : Table κ ν} {k : κ} {x : ν} :
    (⟨k, x⟩ : (_ : κ) × ν) ∈ t.entries ↔ t.lookup k = some x := by
  rw [← AList.mem_lookup_iff, Option.mem_def]

theorem entries_perm {t : Table κ ν} {k : κ} {x : ν} (h : t.lookup k = some x) :
    t.entries.Perm (⟨k, x⟩ :: (t.erase k).entries) := by
  have hmem : k ∈ t.entries.keys := AList.lookup_isSome.mp (by rw [h]; rfl)
  obtain ⟨y, l₁, l₂, hnot, hl, he⟩ := List.exists_of_kerase hmem
  have hy : t.lookup k = some y := mem_entries_iff.mp (by rw [hl]; simp)
  obtain rfl : x = y := Option.some.inj (h.symm.trans hy)
  have herase : (t.erase k).entries = l₁ ++ l₂ := he
  rw [herase, hl]
  exact List.perm_middle

theorem values_perm {t : Table κ ν} {k : κ} {x : ν} (h : t.lookup k = some x) :
    (values t).Perm (x :: values (t.erase k)) :=
  (entries_perm h).map fun e : (_ : κ) × ν => e.2

theorem erase_of_lookup_none {t : Table κ ν} {k : κ} (h : t.lookup k = none) :
    t.erase k = t :=
  AList.ext (List.kerase_of_notMem_keys (AList.lookup_eq_none.mp h))

theorem erase_insert {t : Table κ ν} {k : κ} (h : t.lookup k = none) (x : ν) :
    (t.insert k x).erase k = t := by
  have herase : (t.insert k x).erase k = t.erase k := AList.ext (List.kerase_cons_eq rfl)
  rw [herase, erase_of_lookup_none h]

theorem mem_values_iff {t : Table κ ν} {x : ν} :
    x ∈ values t ↔ ∃ k, t.lookup k = some x := by
  constructor
  · intro h
    obtain ⟨⟨k, y⟩, he, rfl⟩ := List.mem_map.mp h
    exact ⟨k, mem_entries_iff.mp he⟩
  · rintro ⟨k, h⟩
    exact List.mem_map.mpr ⟨⟨k, x⟩, mem_entries_iff.mpr h, rfl⟩

theorem lookup_retain (p : κ → ν → Bool) (t : Table κ ν) (k : κ) :
    (retain p t).lookup k = (t.lookup k).filter (p k) := by
  ext x
  rw [Option.filter_eq_some_iff, ← mem_entries_iff, ← mem_entries_iff]
  simp only [retain, List.mem_filter]

theorem lookup_of_erase {t : Table κ ν} {k k' : κ} {x : ν}
    (h : (t.erase k).lookup k' = some x) : k' ≠ k ∧ t.lookup k' = some x := by
  rcases eq_or_ne k' k with rfl | hne
  · rw [AList.lookup_erase] at h
    cases h
  · rw [AList.lookup_erase_ne hne] at h
    exact ⟨hne, h⟩

theorem lookup_of_insert {t : Table κ ν} {k k' : κ} {x y : ν}
    (h : (t.insert k x).lookup k' = some y) :
    (k' = k ∧ y = x) ∨ (k' ≠ k ∧ t.lookup k' = some y) := by
  rcases eq_or_ne k' k with rfl | hne
  · rw [AList.lookup_insert] at h
    exact .inl ⟨rfl, (Option.some.inj h).symm⟩
  · rw [AList.lookup_insert_ne hne] at h
    exact .inr ⟨hne, h⟩

end KeyedTable
