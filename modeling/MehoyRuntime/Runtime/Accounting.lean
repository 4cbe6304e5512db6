import MehoyRuntime.Runtime.Interleaving
import MehoyRuntime.Stream.Outcome

/-!
# What the ledger accounts for

The claims among the pending entries are those of the loads that hold a guard, each
under a number of its own as long as the numbers last. As long as they do, the limits
are kept over every run.
-/

namespace MehoyRuntime.Runtime
open MehoyRuntime.Core MehoyRuntime.Stream TransitionSystem KeyedTable Word RuntimeState
variable {ext : Externals} {s s' t : RuntimeState} {a : RuntimeAction}

/-! ### The guard of a load -/

namespace LoadCall

/-- What the guard of a load holds, by where the load stands. -/
def Guard (call : LoadCall) : LoadPc → Prop
  | .sizing => call.reserved = none
  | .reserving footprint => call.reserved = none ∧ call.footprint = some footprint
  | .releasing _ => ∀ claim, call.reserved = some claim → call.footprint = some claim.2
  | .rejected _ _ | .tearing _ _ _ | .returned _ | .dropped | .panicked => call.reserved = none
  | _ => ∃ claim, call.reserved = some claim ∧ call.footprint = some claim.2

@[simp] theorem attempted_reserved (call : LoadCall) (result : Except String Unit) :
    (call.attempted result).reserved = call.reserved := by
  cases result <;> rfl

@[simp] theorem attempted_footprint (call : LoadCall) (result : Except String Unit) :
    (call.attempted result).footprint = call.footprint := by
  cases result <;> rfl

@[simp] theorem attempted_built (call : LoadCall) (result : Except String Unit) :
    (call.attempted result).built = call.built := by
  cases result <;> rfl

theorem Guard.footprint {call : LoadCall} {pc : LoadPc} (hg : call.Guard pc) {claim : Claim}
    (hr : call.reserved = some claim) : call.footprint = some claim.2 := by
  have hheld : (∃ claim, call.reserved = some claim ∧ call.footprint = some claim.2) →
      call.footprint = some claim.2 := by
    rintro ⟨claim', hr', hf⟩
    obtain rfl : claim = claim' := Option.some.inj (hr.symm.trans hr')
    exact hf
  have hnone : call.reserved = none → call.footprint = some claim.2 := by
    intro hn
    rw [hn] at hr
    cases hr
  cases pc with
  | sizing | rejected | tearing | returned | dropped | panicked => exact hnone hg
  | reserving footprint => exact hnone hg.1
  | releasing result => exact hg claim hr
  | _ => exact hheld hg

theorem next_reserved {call call' : LoadCall} {a : LoadAction}
    (h : call.next call.pc a = some call') :
    call'.reserved = call.reserved ∧ call'.built = call.built := by
  cases next_cases h with
  | terminated hpc => exact ⟨attempted_reserved call _, attempted_built call _⟩
  | shutDown hpc | rolledBack hpc => exact ⟨attempted_reserved call _, attempted_built call _⟩
  | _ => exact ⟨rfl, rfl⟩

theorem next_guard {call call' : LoadCall} {a : LoadAction} (hg : call.Guard call.pc)
    (h : call.next call.pc a = some call') : call'.Guard call'.pc := by
  have hgiven : ∀ claim, call.reserved = some claim → call.footprint = some claim.2 :=
    fun _ => hg.footprint
  cases next_cases h with
  | unsized hpc =>
    rw [hpc] at hg
    exact hg
  | sized hpc =>
    rw [hpc] at hg
    exact ⟨hg, rfl⟩
  | unresolved | incompatible | unreachable | unspawned | flushed | dropped => exact hgiven
  | terminated hpc =>
    rw [hpc] at hg
    simpa [Guard, goto] using hg
  | shutDown hpc | rolledBack hpc => simpa [Guard, goto, fail] using hgiven
  | prepared hpc | identified hpc | spawned hpc | ready hpc | unready hpc | elapsed hpc
  | accepted hpc | refused hpc | uncommitted hpc =>
    rw [hpc] at hg
    exact hg

end LoadCall

theorem LoadStep.guard {j : ℕ} {call : LoadCall} {b : LoadAction} (hg : call.Guard call.pc)
    (h : LoadStep ext s j call b s') :
    ∃ call', s'.loads = s.loads.set j call' ∧ call'.Guard call'.pc := by
  cases h with
  | refused hpc hreserve =>
    rw [hpc] at hg
    exact ⟨_, rfl, hg.1⟩
  | reserved hpc hreserve =>
    rw [hpc] at hg
    exact ⟨_, rfl, _, rfl, hg.2⟩
  | built hpc =>
    rw [hpc] at hg
    exact ⟨_, rfl, hg⟩
  | @fulfilled m model claim id ledger hpc hm hclaim hfulfil =>
    refine ⟨call.settled.goto (.returned (.ok id)), ?_, rfl⟩
    rw [publish_frame]
    rfl
  | rejected hpc hm hclaim hfulfil => exact ⟨_, rfl, rfl⟩
  | teardown hpc hact =>
    rw [act_frame hact]
    rw [hpc] at hg
    exact ⟨_, rfl, hg⟩
  | torn hpc hover hend =>
    rw [hpc] at hg
    rcases hend with ⟨err, rfl⟩ | rfl <;> exact ⟨_, rfl, hg⟩
  | abandoned hpc hact =>
    rw [act_frame hact]
    rw [hpc] at hg
    exact ⟨_, rfl, hg⟩
  | @released result hpc =>
    refine ⟨_, rfl, ?_⟩
    cases result <;> rfl
  | inside hnext => exact ⟨_, rfl, LoadCall.next_guard hg hnext⟩

theorem UnloadingStep.loads {j : ℕ} {call : Unloading} {b : UnloadingAction}
    (h : UnloadingStep ext s j call b s') : s'.loads = s.loads := by
  cases h with
  | begun hmodel hpc hact | dropped hmodel hpc hact =>
    rw [act_frame hact]
    rfl
  | _ => rfl

def Guarded (s : RuntimeState) : Prop :=
  ∀ (j : ℕ) (call : LoadCall), s.loads[j]? = some call → call.Guard call.pc

theorem step_guarded (hs : Guarded s) (h : (runtimeSystem ext).step s a = some s') :
    Guarded s' := by
  intro j call' hj'
  cases step_cases h with
  | load artifact =>
    rcases Slots.get_push_cases hj' with ⟨-, rfl⟩ | hj'
    · rfl
    · exact hs j call' hj'
  | unloadWithin id drain => exact hs j call' hj'
  | ofLoad hj hstep =>
    obtain ⟨after, hloads, hguard⟩ := hstep.guard (hs _ _ hj)
    rw [hloads] at hj'
    rcases Slots.get_set_cases hj' with ⟨-, rfl⟩ | ⟨-, hj'⟩
    · exact hguard
    · exact hs j call' hj'
  | ofUnload hj hstep =>
    rw [hstep.loads] at hj'
    exact hs j call' hj'
  | ofModel htaken hfree hact =>
    rw [act_frame hact] at hj'
    exact hs j call' hj'

theorem reachable_guarded (h : Reachable (runtimeSystem ext) s) : Guarded s := by
  refine h.invariant ?_ fun _ _ _ _ hs _ hst => step_guarded hs hst
  rintro _ ⟨limits, rfl⟩ j call hj
  simp [withLimits] at hj

/-! ### Claims and pending entries -/

def RuntimeState.claims (s : RuntimeState) : List Claim := s.loads.filterMap LoadCall.reserved

inductive LedgerStep (s s' : RuntimeState) : Prop
  | same (hledger : s'.ledger = s.ledger) (hclaims : s'.claims = s.claims)
      (hallocated : s'.allocated = s.allocated)
  | reserved (claim : Claim) {ledger}
      (hreserve : s.ledger.reserve s.limits claim.2 = .ok (claim.1, ledger))
      (hledger : s'.ledger = ledger) (hclaims : s'.claims.Perm (claim :: s.claims))
      (hallocated : s'.allocated = s.allocated + 1)
  | released (claim : Claim) (hledger : s'.ledger = s.ledger.release claim.1)
      (hclaims : s.claims.Perm (claim :: s'.claims)) (hallocated : s'.allocated = s.allocated)
  | fulfilled (claim : Claim) (id : InstanceId) (m : ℕ)
      (hledger : s'.ledger = (s.ledger.fulfil claim.1 id m).2)
      (hclaims : s.claims.Perm (claim :: s'.claims)) (hallocated : s'.allocated = s.allocated)
  | removed {id} (hledger : s'.ledger = s.ledger.remove id) (hclaims : s'.claims = s.claims)
      (hallocated : s'.allocated = s.allocated)

theorem LoadStep.ledger {j : ℕ} {call : LoadCall} {b : LoadAction} (hg : call.Guard call.pc)
    (hj : s.loads[j]? = some call) (h : LoadStep ext s j call b s') : LedgerStep s s' := by
  cases h with
  | refused hpc hreserve => exact .same rfl (Slots.filterMap_keep hj rfl) rfl
  | @reserved footprint id ledger hpc hreserve =>
    rw [hpc] at hg
    exact .reserved ⟨id, footprint⟩ hreserve rfl
      (Slots.filterMap_gain hj hg.1 rfl) rfl
  | built hpc => exact .same rfl (Slots.filterMap_keep hj rfl) rfl
  | @fulfilled m model claim id ledger hpc hm hclaim hfulfil =>
    rw [publish_frame]
    refine .fulfilled claim model.loaded.id m ?_
      (Slots.filterMap_lose hj hclaim rfl) rfl
    rw [hfulfil]
    rfl
  | @rejected m model claim reason ledger hpc hm hclaim hfulfil =>
    refine .fulfilled claim model.loaded.id m ?_
      (Slots.filterMap_lose hj hclaim rfl) rfl
    rw [hfulfil]
    rfl
  | teardown hpc hact =>
    rw [act_frame hact]
    exact .same rfl (Slots.filterMap_keep hj rfl) rfl
  | torn hpc hover hend => exact .same rfl (Slots.filterMap_keep hj rfl) rfl
  | abandoned hpc hact =>
    rw [act_frame hact]
    exact .same rfl (Slots.filterMap_keep hj rfl) rfl
  | @released result hpc =>
    cases hr : call.reserved with
    | none =>
      refine .same ?_ (Slots.filterMap_keep hj hr) rfl
      simp only [setLoad, afterRelease, hr]
    | some claim =>
      refine .released claim ?_ (Slots.filterMap_lose hj hr rfl) rfl
      simp only [setLoad, afterRelease, hr]
  | inside hnext =>
    exact .same rfl (Slots.filterMap_keep hj (LoadCall.next_reserved hnext).1.symm) rfl

theorem UnloadingStep.ledger {j : ℕ} {call : Unloading} {b : UnloadingAction}
    (h : UnloadingStep ext s j call b s') : LedgerStep s s' := by
  cases h with
  | begun hmodel hpc hact | dropped hmodel hpc hact =>
    rw [act_frame hact]
    exact .same rfl rfl rfl
  | removed hmodel hpc => exact .removed rfl rfl rfl
  | _ => exact .same rfl rfl rfl

theorem step_ledger (hs : Guarded s) (h : (runtimeSystem ext).step s a = some s') :
    LedgerStep s s' := by
  cases step_cases h with
  | load artifact =>
    refine .same rfl ?_ rfl
    simp [claims, LoadCall.new]
  | unloadWithin id drain => exact .same rfl rfl rfl
  | ofLoad hj hstep => exact hstep.ledger (hs _ _ hj) hj
  | ofUnload hj hstep => exact hstep.ledger
  | ofModel htaken hfree hact =>
    rw [act_frame hact]
    exact .same rfl rfl rfl

/-- The ledger accounts for the claims of the loads, under numbers that were given out,
and keeps the limits. -/
structure Accounted (s : RuntimeState) : Prop where
  next : s.ledger.nextReservation = UInt64.ofNat s.allocated
  numbered : ∀ id footprint, s.ledger.pending.lookup id = some footprint →
    ∃ k, 1 ≤ k ∧ k ≤ s.allocated ∧ id = ⟨UInt64.ofNat k⟩
  pending : s.ledger.pending.entries.Perm s.claims
  within : s.ledger.Within s.limits

theorem Accounted.lookup (hs : Accounted s) {claim : Claim} (h : claim ∈ s.claims) :
    s.ledger.pending.lookup claim.1 = some claim.2 :=
  mem_entries_iff.mp (hs.pending.mem_iff.mpr h)

theorem Accounted.held (hs : Accounted s) {j : ℕ} {call : LoadCall} {claim : Claim}
    (hj : s.loads[j]? = some call) (hr : call.reserved = some claim) :
    s.ledger.pending.lookup claim.1 = some claim.2 :=
  hs.lookup (List.mem_filterMap.mpr ⟨call, List.mem_of_getElem? hj, hr⟩)

theorem Accounted.mem (hs : Accounted s) {claim : Claim} {rest : List Claim}
    (h : s.claims.Perm (claim :: rest)) : s.ledger.pending.lookup claim.1 = some claim.2 :=
  hs.lookup (h.mem_iff.mpr (List.mem_cons_self ..))

theorem Accounted.free (hs : Accounted s) (hfew : s.allocated < 2 ^ 64) :
    s.ledger.pending.lookup ⟨s.ledger.nextReservation + 1⟩ = none := by
  cases hl : s.ledger.pending.lookup ⟨s.ledger.nextReservation + 1⟩ with
  | none => rfl
  | some footprint =>
    obtain ⟨k, hpos, hle, he⟩ := hs.numbered _ _ hl
    rw [hs.next, ofNat_succ] at he
    have hraw : UInt64.ofNat (s.allocated + 1) = UInt64.ofNat k := congrArg ReservationId.raw he
    exact absurd hraw.symm (ofNat_ne (by omega) (by omega))

theorem Accounted.released (hs : Accounted s) {claim : Claim} {claims : List Claim}
    (h : s.claims.Perm (claim :: claims)) :
    (s.ledger.pending.erase claim.1).entries.Perm claims := by
  have hentries := (entries_perm (hs.mem h)).symm.trans (hs.pending.trans h)
  exact List.Perm.cons_inv hentries

theorem step_limits (h : (runtimeSystem ext).step s a = some s') : s'.limits = s.limits := by
  cases step_cases h with
  | load | unloadWithin => rfl
  | ofLoad hj hstep =>
    cases hstep with
    | fulfilled => rw [publish_frame]; rfl
    | teardown hpc hact | abandoned hpc hact => rw [act_frame hact]; rfl
    | _ => rfl
  | ofUnload hj hstep =>
    cases hstep with
    | begun hmodel hpc hact | dropped hmodel hpc hact => rw [act_frame hact]; rfl
    | _ => rfl
  | ofModel htaken hfree hact => rw [act_frame hact]

theorem LedgerStep.allocated (h : LedgerStep s s') : s.allocated ≤ s'.allocated := by
  cases h with
  | reserved _ _ _ _ hallocated => omega
  | same _ _ hallocated | released _ _ _ hallocated | fulfilled _ _ _ _ _ hallocated
  | removed _ _ hallocated => omega

theorem Accounted.settle (hs : Accounted s) {claim : Claim}
    (hpending : s'.ledger.pending = s.ledger.pending.erase claim.1)
    (hnext : s'.ledger.nextReservation = s.ledger.nextReservation)
    (hclaims : s.claims.Perm (claim :: s'.claims)) (hallocated : s'.allocated = s.allocated)
    (hwithin : s'.ledger.Within s'.limits) : Accounted s' where
  next := by rw [hnext, hallocated, hs.next]
  numbered id footprint hl := by
    rw [hpending] at hl
    rw [hallocated]
    exact hs.numbered id footprint (lookup_of_erase hl).2
  pending := by
    rw [hpending]
    exact hs.released hclaims
  within := hwithin

theorem LedgerStep.accounted (hs : Accounted s) (h : LedgerStep s s')
    (hlimits : s'.limits = s.limits) (hfew : s'.allocated ≤ 2 ^ 64) : Accounted s' := by
  cases h with
  | same hledger hclaims hallocated =>
    exact ⟨by rw [hledger, hallocated, hs.next], by rw [hledger, hallocated]; exact hs.numbered,
      by rw [hledger, hclaims]; exact hs.pending, by rw [hledger, hlimits]; exact hs.within⟩
  | @reserved claim ledger hreserve hledger hclaims hallocated =>
    have hfree := hs.free (by omega)
    obtain ⟨-, hid, hl⟩ := Ledger.reserve_ok hreserve
    subst hledger
    refine ⟨?_, fun id footprint hlookup => ?_, ?_, ?_⟩
    · rw [hl, hallocated, ← ofNat_succ, hs.next]
    · rw [hl] at hlookup
      rcases lookup_of_insert hlookup with ⟨rfl, -⟩ | ⟨-, hlookup⟩
      · exact ⟨s.allocated + 1, by omega, by omega, by rw [hid, hs.next, ofNat_succ]⟩
      · obtain ⟨k, hpos, hle, he⟩ := hs.numbered id footprint hlookup
        exact ⟨k, hpos, by omega, he⟩
    · have hnotMem : claim.1 ∉ s.ledger.pending :=
        AList.lookup_eq_none.mp (by rw [hid]; exact hfree)
      rw [hl, AList.entries_insert_of_notMem hnotMem]
      exact (hs.pending.cons claim).trans hclaims.symm
    · rw [hlimits]
      exact hs.within.reserve hfree hreserve
  | @released claim hledger hclaims hallocated =>
    refine hs.settle ?_ ?_ hclaims hallocated ?_
    · rw [hledger]
      rfl
    · rw [hledger]
      rfl
    · rw [hledger, hlimits]
      exact hs.within.release claim.1
  | @fulfilled claim id m hledger hclaims hallocated =>
    have hwithin : s'.ledger.Within s'.limits := by
      rw [hledger, hlimits]
      exact hs.within.fulfil claim.1 id m
    rcases s.ledger.fulfil_cases claim.1 id m with ⟨footprint, -, -, he⟩ | ⟨reason, he⟩
    · rw [he] at hledger
      exact hs.settle (by rw [hledger]) (by rw [hledger]) hclaims hallocated hwithin
    · rw [he] at hledger
      exact hs.settle (by rw [hledger]; rfl) (by rw [hledger]; rfl) hclaims hallocated hwithin
  | @removed id hledger hclaims hallocated =>
    exact ⟨by rw [hledger, hallocated]; exact hs.next,
      by rw [hledger, hallocated]; exact hs.numbered,
      by rw [hledger, hclaims]; exact hs.pending,
      by rw [hledger, hlimits]; exact hs.within.remove id⟩

theorem reachable_accounted (h : Reachable (runtimeSystem ext) s) (hfew : s.allocated ≤ 2 ^ 64) :
    Accounted s := by
  induction h with
  | init hi =>
    obtain ⟨limits, rfl⟩ := hi
    refine ⟨rfl, fun id footprint hl => ?_, .refl _, Ledger.default_within limits⟩
    cases hl
  | step hreach _ hst ih =>
    have hledger := step_ledger (reachable_guarded hreach) hst
    exact hledger.accounted (ih (hledger.allocated.trans hfew)) (step_limits hst) hfew

theorem steps_limits (h : Steps (runtimeSystem ext) s t) : t.limits = s.limits := by
  induction h with
  | refl => rfl
  | tail _ hst ih => exact (step_limits hst).trans ih

/-- However loads and unloads are interleaved, the limits the runtime was built with are
kept, the weights in exact arithmetic, and the sum of the weights never saturates. -/
theorem limits_kept {limits : ResidentLimits}
    (h : Steps (runtimeSystem ext) (.withLimits limits) s) (hfew : s.allocated < 2 ^ 64) :
    len s.ledger.pending + len s.ledger.resident ≤ limits.maxInstances.toNat ∧
    ∀ limit, limits.maxWeightBytes = some limit →
      ((s.ledger.footprints.map fun f => f.weightBytes.toNat).sum ≤ limit.toNat ∧
        s.ledger.committed.weightBytes.toNat =
          (s.ledger.footprints.map fun f => f.weightBytes.toNat).sum) := by
  have hreach : Reachable (runtimeSystem ext) s := h.reachable (.init ⟨limits, rfl⟩)
  have hwithin := (reachable_accounted hreach hfew.le).within
  rw [steps_limits h] at hwithin
  refine ⟨hwithin.count, fun limit hlimit => ?_⟩
  have hweight := hwithin.weight limit hlimit
  refine ⟨hweight, ?_⟩
  have hlimit_le := toNat_le limit
  rw [Ledger.committed_weight]
  exact Nat.min_eq_left (hweight.trans hlimit_le)

def sampleArtifact (size : UInt64) : ModelArtifact := ⟨"a.gguf", size, none, none, false⟩

def untilCommit (j : ℕ) (size : UInt64) : List RuntimeAction :=
  [.stepLoad j (.size (.ok (some (sampleArtifact size)))), .stepLoad j .reserve,
    .stepLoad j (.prepare (.ok (some (sampleArtifact size))) .unchanged none),
    .stepLoad j (.identified none (.ok ())), .stepLoad j (.spawned (.ok ())),
    .stepLoad j (.waited .ready), .stepLoad j (.probed .accepted)]

def untilLoaded (j : ℕ) (size : UInt64) (bytes : List UInt8) : List RuntimeAction :=
  untilCommit j size ++ [.stepLoad j (.commit (.ok bytes)), .stepLoad j .fulfil]

theorem limits_kept_filled :
    ∃ s, (runtimeSystem sampleExternals).run (.withLimits ⟨2, some 10⟩)
        (.load "a" :: .load "b" :: (untilLoaded 0 4 [7] ++ untilCommit 1 6)) = some s ∧
      (len s.ledger.pending = 1 ∧ len s.ledger.resident = 1) ∧
      len s.ledger.pending + len s.ledger.resident ≤ 2 := by
  obtain ⟨s, hrun, hlen, hallocated⟩ :
      ∃ s, (runtimeSystem sampleExternals).run (.withLimits ⟨2, some 10⟩)
          (.load "a" :: .load "b" :: (untilLoaded 0 4 [7] ++ untilCommit 1 6)) = some s ∧
        (len s.ledger.pending = 1 ∧ len s.ledger.resident = 1) ∧ s.allocated = 2 :=
    ⟨_, rfl, ⟨rfl, rfl⟩, rfl⟩
  have hfew : s.allocated < 2 ^ 64 := by omega
  exact ⟨s, hrun, hlen, (limits_kept (steps_of_run hrun) hfew).1⟩

end MehoyRuntime.Runtime
