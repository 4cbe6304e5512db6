import Mathlib.Algebra.BigOperators.Group.List.Basic
import MehoyRuntime.Lib.Table
import MehoyRuntime.Runtime.Resources

/-!
# The ledger

Everything committed against a runtime's limits, under one lock: the claims of loads in
flight, and the resident models with what each is accounted for. Every change of it is
one of the operations below.
-/

namespace MehoyRuntime.Runtime
open MehoyRuntime.Core KeyedTable Word

structure ReservationId where
  raw : UInt64
  deriving DecidableEq, Repr

/-- A model this runtime holds, and what it is accounted for. The position at which the
model was built stands for the model. -/
structure Resident where
  model : ℕ
  footprint : ResourceFootprint
  deriving DecidableEq, Repr

/-- A claim on the runtime's limits: its entry among the pending ones. -/
abbrev Claim := (_ : ReservationId) × ResourceFootprint

def usize (n : ℕ) : UInt64 := UInt64.ofNat n

structure Ledger where
  pending : Table ReservationId ResourceFootprint
  resident : Table InstanceId Resident
  nextReservation : UInt64

namespace Ledger

def default : Ledger := ⟨∅, ∅, 0⟩

def footprints (l : Ledger) : List ResourceFootprint :=
  values l.pending ++ (values l.resident).map Resident.footprint

/-- What is committed right now, loads in flight included. -/
def committed (l : Ledger) : ResidentUsage where
  instances := saturatingAdd (usize (len l.pending)) (usize (len l.resident))
  loading := usize (len l.pending)
  weightBytes := (l.footprints.map ResourceFootprint.weightBytes).foldl saturatingAdd 0

def allocate (l : Ledger) : ReservationId × Ledger :=
  (⟨l.nextReservation + 1⟩, { l with nextReservation := l.nextReservation + 1 })

def reserve (l : Ledger) (limits : ResidentLimits) (footprint : ResourceFootprint) :
    Except RuntimeError (ReservationId × Ledger) :=
  match limits.admits l.committed footprint with
  | .error refusal => .error (.fromRefusal refusal)
  | .ok () =>
    let (id, l) := l.allocate
    .ok (id, { l with pending := l.pending.insert id footprint })

/-- Gives a claim back, as the guard does when it is dropped. -/
def release (l : Ledger) (id : ReservationId) : Ledger := { l with pending := l.pending.erase id }

/-- Turns the claim into a resident model, or says why the model is handed back. -/
def fulfil (l : Ledger) (id : ReservationId) (instanceId : InstanceId) (model : ℕ) :
    Except String InstanceId × Ledger :=
  match l.pending.lookup id with
  | none => (.error "the reservation this load was admitted under had already been released", l)
  | some footprint =>
    let l := l.release id
    match l.resident.lookup instanceId with
    | none => (.ok instanceId, { l with resident := l.resident.insert instanceId ⟨model, footprint⟩ })
    | some _ => (.error s!"instance {instanceId.encoded} is already resident", l)

def remove (l : Ledger) (instanceId : InstanceId) : Ledger :=
  { l with resident := l.resident.erase instanceId }

/-! ### What is committed -/

def count (l : Ledger) : ℕ := len l.pending + len l.resident

def weight (l : Ledger) : ℕ := (l.footprints.map fun f => f.weightBytes.toNat).sum

theorem count_eq (l : Ledger) : l.footprints.length = l.count := by
  rw [footprints, List.length_append, List.length_map, values_length, values_length, count]

theorem committed_weight (l : Ledger) :
    l.committed.weightBytes.toNat = min l.weight (2 ^ 64 - 1) := by
  have h := foldl_saturatingAdd_toNat (l.footprints.map ResourceFootprint.weightBytes) 0
  rw [List.map_map] at h
  rw [committed, h, weight, UInt64.toNat_zero, Nat.zero_add]
  rfl

theorem committed_instances (l : Ledger) (h : l.count < 2 ^ 64) :
    l.committed.instances.toNat = l.count := by
  rw [count] at h
  rw [committed, saturatingAdd_toNat, usize, usize, ofNat_toNat_of_lt (by omega),
    ofNat_toNat_of_lt (by omega), count]
  omega

theorem committed_loading (l : Ledger) (h : l.count < 2 ^ 64) :
    l.committed.loading.toNat = len l.pending := by
  rw [count] at h
  exact ofNat_toNat_of_lt (by omega)

/-- Both limits are kept, the weights in exact arithmetic. -/
structure Within (limits : ResidentLimits) (l : Ledger) : Prop where
  count : l.count ≤ limits.maxInstances.toNat
  weight : ∀ limit, limits.maxWeightBytes = some limit → l.weight ≤ limit.toNat

theorem Within.count_lt {limits : ResidentLimits} {l : Ledger} (h : l.Within limits) :
    l.count < 2 ^ 64 :=
  Nat.lt_of_le_of_lt h.count limits.maxInstances.toNat_lt

theorem Within.of_perm {limits : ResidentLimits} {l l' : Ledger} (h : l.Within limits)
    (rest : List ResourceFootprint) (hp : l.footprints.Perm (rest ++ l'.footprints)) :
    l'.Within limits := by
  have hcount := hp.length_eq
  rw [List.length_append, l.count_eq, l'.count_eq] at hcount
  have hweight := (hp.map fun f => f.weightBytes.toNat).sum_eq
  rw [List.map_append, List.sum_append] at hweight
  refine ⟨?_, fun limit hlimit => ?_⟩
  · have := h.count
    omega
  · have hle := h.weight limit hlimit
    rw [Ledger.weight] at hle ⊢
    omega

/-! ### The operations -/

theorem default_within (limits : ResidentLimits) : default.Within limits :=
  ⟨Nat.zero_le _, fun _ _ => Nat.zero_le _⟩

theorem reserve_ok {l l' : Ledger} {limits : ResidentLimits} {footprint : ResourceFootprint}
    {id : ReservationId} (h : l.reserve limits footprint = .ok (id, l')) :
    limits.admits l.committed footprint = .ok () ∧ id = ⟨l.nextReservation + 1⟩ ∧
      l' = ⟨l.pending.insert id footprint, l.resident, l.nextReservation + 1⟩ := by
  unfold reserve at h
  split at h
  · cases h
  · rename_i hadmits
    cases h
    exact ⟨hadmits, rfl, rfl⟩

theorem insert_footprints {l : Ledger} {id : ReservationId} (hfree : l.pending.lookup id = none)
    (footprint : ResourceFootprint) (next : UInt64) :
    (Ledger.mk (l.pending.insert id footprint) l.resident next).footprints =
      footprint :: l.footprints := by
  rw [footprints, values_insert, erase_of_lookup_none hfree, List.cons_append, footprints]

theorem Within.reserve {l l' : Ledger} {limits : ResidentLimits} {footprint : ResourceFootprint}
    {id : ReservationId} (hw : l.Within limits)
    (hfree : l.pending.lookup ⟨l.nextReservation + 1⟩ = none)
    (h : l.reserve limits footprint = .ok (id, l')) : l'.Within limits := by
  obtain ⟨hadmits, rfl, rfl⟩ := reserve_ok h
  obtain ⟨hcount, hweight⟩ := ResidentLimits.admits_ok hadmits
  rw [l.committed_instances hw.count_lt] at hcount
  have hfoot := insert_footprints hfree footprint (l.nextReservation + 1)
  constructor
  · rw [← count_eq, hfoot, List.length_cons, count_eq]
    omega
  · intro limit hlimit
    have hle := hweight limit hlimit
    rw [committed_weight] at hle
    -- The fold did not saturate: a saturated sum admits nothing but empty weights.
    have hexact := hw.weight limit hlimit
    have hlimit_lt := toNat_le limit
    rw [Ledger.weight, hfoot, List.map_cons, List.sum_cons]
    rw [Ledger.weight] at hle hexact
    omega

theorem release_footprints {l : Ledger} {id : ReservationId} {footprint : ResourceFootprint}
    (h : l.pending.lookup id = some footprint) :
    l.footprints.Perm (footprint :: (l.release id).footprints) := by
  rw [footprints, footprints, release, ← List.cons_append]
  exact (values_perm h).append_right _

theorem Within.release {l : Ledger} {limits : ResidentLimits} (hw : l.Within limits)
    (id : ReservationId) : (l.release id).Within limits := by
  cases h : l.pending.lookup id with
  | none =>
    rw [Ledger.release, erase_of_lookup_none h]
    exact hw
  | some footprint => exact hw.of_perm [footprint] (release_footprints h)

theorem release_of_none {l : Ledger} {id : ReservationId} (h : l.pending.lookup id = none) :
    l.release id = l := by
  rw [Ledger.release, erase_of_lookup_none h]

theorem fulfil_cases (l : Ledger) (id : ReservationId) (instanceId : InstanceId) (model : ℕ) :
    (∃ footprint, l.pending.lookup id = some footprint ∧ l.resident.lookup instanceId = none ∧
      l.fulfil id instanceId model = (.ok instanceId,
        ⟨l.pending.erase id, l.resident.insert instanceId ⟨model, footprint⟩,
          l.nextReservation⟩)) ∨
    ∃ reason, l.fulfil id instanceId model = (.error reason, l.release id) := by
  unfold fulfil
  cases hpending : l.pending.lookup id with
  | none =>
    refine .inr ⟨"the reservation this load was admitted under had already been released", ?_⟩
    rw [release_of_none hpending]
  | some footprint =>
    cases hresident : l.resident.lookup instanceId with
    | none =>
      refine .inl ⟨footprint, rfl, rfl, ?_⟩
      simp only [Ledger.release, hresident]
    | some other =>
      refine .inr ⟨s!"instance {instanceId.encoded} is already resident", ?_⟩
      simp only [Ledger.release, hresident]

theorem fulfilled_footprints {l : Ledger} {id : ReservationId} {instanceId : InstanceId}
    {footprint : ResourceFootprint} (hpending : l.pending.lookup id = some footprint)
    (hresident : l.resident.lookup instanceId = none) (model : ℕ) :
    l.footprints.Perm (Ledger.mk (l.pending.erase id)
      (l.resident.insert instanceId ⟨model, footprint⟩) l.nextReservation).footprints := by
  rw [footprints, footprints, values_insert, erase_of_lookup_none hresident, List.map_cons]
  exact ((values_perm hpending).append_right _).trans List.perm_middle.symm

theorem Within.fulfil {l : Ledger} {limits : ResidentLimits} (hw : l.Within limits)
    (id : ReservationId) (instanceId : InstanceId) (model : ℕ) :
    (l.fulfil id instanceId model).2.Within limits := by
  rcases l.fulfil_cases id instanceId model with ⟨footprint, hp, hr, he⟩ | ⟨reason, he⟩
  · rw [he]
    exact hw.of_perm [] (fulfilled_footprints hp hr model)
  · rw [he]
    exact hw.release id

theorem remove_footprints {l : Ledger} {instanceId : InstanceId} {entry : Resident}
    (h : l.resident.lookup instanceId = some entry) :
    l.footprints.Perm (entry.footprint :: (l.remove instanceId).footprints) := by
  rw [footprints, footprints, remove]
  exact (((values_perm h).map Resident.footprint).append_left _).trans List.perm_middle

theorem Within.remove {l : Ledger} {limits : ResidentLimits} (hw : l.Within limits)
    (instanceId : InstanceId) : (l.remove instanceId).Within limits := by
  cases h : l.resident.lookup instanceId with
  | none =>
    rw [Ledger.remove, erase_of_lookup_none h]
    exact hw
  | some entry => exact hw.of_perm [entry.footprint] (remove_footprints h)

end Ledger
end MehoyRuntime.Runtime
