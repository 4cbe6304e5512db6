import MehoyRuntime.Lib.Word
import MehoyRuntime.Runtime.Vocabulary

/-!
# What a model is accounted as occupying

Footprints, limits and usage. A `usize` is a 64-bit word here.
-/

namespace MehoyRuntime.Runtime
open MehoyRuntime.Core Word

def defaultResidentCapacity : UInt64 := 1

inductive FootprintBasis
  | containerSize
  deriving DecidableEq, Repr

structure ResourceFootprint where
  weightBytes : UInt64
  basis : FootprintBasis
  deriving DecidableEq, Repr

def ResourceFootprint.fromContainerSize (sizeBytes : UInt64) : ResourceFootprint :=
  ⟨sizeBytes, .containerSize⟩

structure ResidentUsage where
  instances : UInt64
  loading : UInt64
  weightBytes : UInt64
  deriving DecidableEq, Repr

inductive Refusal
  | instances (capacity : UInt64)
  | weightBytes (requested committed limit : UInt64)
  deriving DecidableEq, Repr

structure ResidentLimits where
  maxInstances : UInt64
  maxWeightBytes : Option UInt64
  deriving DecidableEq, Repr

namespace ResidentLimits

def default : ResidentLimits := ⟨defaultResidentCapacity, none⟩

/-- Whether one more model of this footprint fits. The count is checked first. -/
def admits (limits : ResidentLimits) (committed : ResidentUsage) (footprint : ResourceFootprint) :
    Except Refusal Unit :=
  if limits.maxInstances ≤ committed.instances then .error (.instances limits.maxInstances)
  else
    match limits.maxWeightBytes with
    | none => .ok ()
    | some limit =>
      if (checkedAdd committed.weightBytes footprint.weightBytes).any (· ≤ limit) then .ok ()
      else .error (.weightBytes footprint.weightBytes committed.weightBytes limit)

theorem admits_ok {limits : ResidentLimits} {committed : ResidentUsage}
    {footprint : ResourceFootprint} (h : limits.admits committed footprint = .ok ()) :
    committed.instances.toNat < limits.maxInstances.toNat ∧
    ∀ limit, limits.maxWeightBytes = some limit →
      committed.weightBytes.toNat + footprint.weightBytes.toNat ≤ limit.toNat := by
  unfold admits at h
  split at h
  · cases h
  · rename_i hcount
    refine ⟨UInt64.lt_iff_toNat_lt.mp (UInt64.not_le.mp hcount), fun limit hlimit => ?_⟩
    simp only [hlimit] at h
    cases htotal : checkedAdd committed.weightBytes footprint.weightBytes with
    | none =>
      rw [htotal] at h
      cases h
    | some total =>
      rw [htotal] at h
      split at h
      · rename_i hfits
        have hle : total ≤ limit := of_decide_eq_true hfits
        rw [← checkedAdd_eq_some htotal]
        exact UInt64.le_iff_toNat_le.mp hle
      · cases h

end ResidentLimits

def RuntimeError.fromRefusal : Refusal → RuntimeError
  | .instances capacity => .residentCapacityReached capacity
  | .weightBytes requested committed limit => .resourcesExhausted requested committed limit

end MehoyRuntime.Runtime
