import MehoyRuntime.Runtime.Conservation

/-!
# Workers that could not be stopped

What stays accounted for when an attempt to stop a worker fails. A load gives its claim
back when it fails or is dropped, whatever became of its worker; a model that was
published keeps its entry until it has been unloaded.
-/

namespace MehoyRuntime.Runtime
open MehoyRuntime.Core MehoyRuntime.Stream TransitionSystem KeyedTable RuntimeState
variable {ext : Externals} {s s' : RuntimeState} {a : RuntimeAction}

/-! ### The worker of a load -/

namespace LoadCall

/-- What is known of the worker of a load, by where the load stands. -/
def Worker (call : LoadCall) : LoadPc → Prop
  | .returned (.ok _) => call.stopFailed = false
  | .returned (.error _) | .dropped | .panicked => True
  | .fulfilling m | .rejected _ m | .tearing _ m _ =>
    call.stopFailed = false ∧ call.built = some m
  | .flushing _ => call.built = none
  | .releasing _ =>
    call.built = none ∧ (call.stopFailed = true → ∃ claim, call.reserved = some claim)
  | _ => call.stopFailed = false ∧ call.built = none

theorem next_worker {call call' : LoadCall} {b : LoadAction} (hg : call.Guard call.pc)
    (hw : call.Worker call.pc) (h : call.next call.pc b = some call') :
    call'.Worker call'.pc := by
  -- A load that fails without having tried to stop its worker.
  have huntried : ∀ {c : LoadCall}, c.stopFailed = false ∧ c.built = none →
      c.built = none ∧ (c.stopFailed = true → ∃ claim, c.reserved = some claim) := by
    rintro c ⟨hf, hb⟩
    refine ⟨hb, fun ht => ?_⟩
    rw [hf] at ht
    cases ht
  -- A load that tried, and still holds its claim.
  have htried : ∀ {c : LoadCall}, c.built = none →
      (∃ claim, c.reserved = some claim ∧ c.footprint = some claim.2) →
      c.built = none ∧ (c.stopFailed = true → ∃ claim, c.reserved = some claim) := by
    rintro c hb ⟨claim, hr, -⟩
    exact ⟨hb, fun _ => ⟨claim, hr⟩⟩
  cases next_cases h with
  | unsized hpc => trivial
  | unresolved hpc | incompatible hpc | unreachable hpc | unspawned hpc =>
    rw [hpc] at hw
    exact huntried hw
  | unready hpc =>
    rw [hpc] at hw
    exact hw.2
  | terminated hpc =>
    rw [hpc] at hw
    exact (attempted_built call _).trans hw.2
  | flushed hpc =>
    rw [hpc] at hg hw
    exact htried hw hg
  | @shutDown _ result hpc | @rolledBack _ result hpc =>
    rw [hpc] at hg hw
    refine htried (c := call.attempted result) ?_ ?_
    · rw [attempted_built]
      exact hw.2
    · rw [attempted_reserved, attempted_footprint]
      exact hg
  | dropped hsuspended =>
    unfold suspended at hsuspended
    split at hsuspended
    case h_5 hpc =>
      rw [hpc] at hg hw
      exact htried hw hg
    case h_9 => cases hsuspended
    all_goals
      rename_i hpc
      rw [hpc] at hw
      exact huntried hw
  | sized hpc | prepared hpc | identified hpc | spawned hpc | ready hpc | elapsed hpc
  | accepted hpc | refused hpc | uncommitted hpc =>
    rw [hpc] at hw
    exact hw

end LoadCall

theorem LoadStep.worker {j : ℕ} {call : LoadCall} {b : LoadAction} (hg : call.Guard call.pc)
    (hw : call.Worker call.pc) (h : LoadStep ext s j call b s') :
    ∃ call', s'.loads = s.loads.set j call' ∧ call'.Worker call'.pc := by
  cases h with
  | refused hpc hreserve => exact ⟨_, rfl, trivial⟩
  | reserved hpc hreserve | built hpc =>
    rw [hpc] at hw
    exact ⟨_, rfl, hw.1, by first | rfl | exact hw.2⟩
  | fulfilled hpc hm hclaim hfulfil =>
    rw [hpc] at hw
    rw [publish_frame]
    exact ⟨_, rfl, hw.1⟩
  | rejected hpc hm hclaim hfulfil =>
    rw [hpc] at hw
    exact ⟨_, rfl, hw⟩
  | teardown hpc hact =>
    rw [hpc] at hw
    rw [act_frame hact]
    exact ⟨_, rfl, hw⟩
  | torn hpc hover hend =>
    refine ⟨_, rfl, ?_⟩
    rcases hend with ⟨err, rfl⟩ | rfl <;> trivial
  | abandoned hpc hact =>
    rw [act_frame hact]
    exact ⟨_, rfl, trivial⟩
  | @released result hpc =>
    refine ⟨_, rfl, ?_⟩
    cases result <;> trivial
  | inside hnext => exact ⟨_, rfl, LoadCall.next_worker hg hw hnext⟩

/-- What is known of the workers of all loads. A load that returned an identifier left a
published model under it. -/
structure Manned (s : RuntimeState) : Prop where
  worker : ∀ (j : ℕ) (call : LoadCall), s.loads[j]? = some call → call.Worker call.pc
  returned : ∀ (j : ℕ) (call : LoadCall) (id : InstanceId), s.loads[j]? = some call →
    call.pc = .returned (.ok id) →
    ∃ m x, call.built = some m ∧ s.models[m]? = some x ∧ x.loaded.id = id ∧ x.published = true

theorem step_manned (hreach : Reachable (runtimeSystem ext) s) (hs : Manned s)
    (h : (runtimeSystem ext).step s a = some s') : Manned s' := by
  have hg := reachable_guarded hreach
  have hstill : ∀ (j : ℕ) (call : LoadCall) (id : InstanceId), s.loads[j]? = some call →
      call.pc = .returned (.ok id) → ∃ m x, call.built = some m ∧ s'.models[m]? = some x ∧
        x.loaded.id = id ∧ x.published = true := by
    intro j call id hj hpc
    obtain ⟨m, x, hb, hm, hid, hp⟩ := hs.returned j call id hj hpc
    obtain ⟨x', hm', hnext⟩ := step_model hreach h hm
    exact ⟨m, x', hb, hm', hnext.id.trans hid, hnext.published hp⟩
  cases step_cases h with
  | load artifact =>
    refine ⟨fun j call hj => ?_, fun j call id hj hpc => ?_⟩
    · rcases Slots.get_push_cases hj with ⟨-, rfl⟩ | hj
      · exact ⟨rfl, rfl⟩
      · exact hs.worker j call hj
    · rcases Slots.get_push_cases hj with ⟨-, rfl⟩ | hj
      · cases hpc
      · exact hstill j call id hj hpc
  | unloadWithin id drain => exact ⟨hs.worker, hstill⟩
  | @ofLoad j₁ call₁ b s' hj₁ hstep =>
    obtain ⟨after, hloads, hworker⟩ := hstep.worker (hg _ _ hj₁) (hs.worker _ _ hj₁)
    refine ⟨fun j call hj => ?_, fun j call id hj hpc => ?_⟩
    · rw [hloads] at hj
      rcases Slots.get_set_cases hj with ⟨-, rfl⟩ | ⟨-, hj⟩
      · exact hworker
      · exact hs.worker j call hj
    · have hset := hj
      rw [hloads] at hset
      rcases Slots.get_set_cases hset with ⟨rfl, -⟩ | ⟨-, hold⟩
      · obtain ⟨m, claim, footprint, hfulfilling, rfl, -, -, -, -, hresident⟩ :=
          hstep.returned_ok (hg _ _ hj₁) hj₁ hj hpc
        have hw := hs.worker _ _ hj₁
        rw [hfulfilling] at hw
        have hentry : s'.ledger.resident.lookup id = some ⟨m, footprint⟩ := by
          rw [hresident, AList.lookup_insert]
        obtain ⟨x, hm, hid, hp⟩ := (reachable_placed (hreach.next _ h)).entry id _ hentry
        exact ⟨m, x, hw.2, hm, hid, hp⟩
      · exact hstill j call id hold hpc
  | ofUnload hk hstep => exact ⟨by rw [hstep.loads]; exact hs.worker, by rw [hstep.loads]; exact hstill⟩
  | ofModel htaken hfree hact =>
    have hloads : s'.loads = s.loads := by rw [act_frame hact]
    exact ⟨by rw [hloads]; exact hs.worker, by rw [hloads]; exact hstill⟩

theorem reachable_manned (h : Reachable (runtimeSystem ext) s) : Manned s := by
  refine h.invariant ?_ fun _ _ _ hreach hs _ hst => step_manned hreach hs hst
  rintro _ ⟨limits, rfl⟩
  refine ⟨fun j call hj => ?_, fun j call id hj => ?_⟩
  · simp [withLimits] at hj
  · simp [withLimits] at hj

/-! ### Entries of published models -/

def Distinct (s : RuntimeState) : Prop :=
  ∀ (m m' : ℕ) (x x' : Model), s.models[m]? = some x → s.models[m']? = some x' →
    x.published = true → x'.published = true → x.loaded.id = x'.loaded.id → m = m'

def Held (s : RuntimeState) : Prop :=
  ∀ (m : ℕ) (x : Model), s.models[m]? = some x → x.published = true →
    x.loaded.phase ≠ .unloaded →
    ∃ entry, s.ledger.resident.lookup x.loaded.id = some entry ∧ entry.model = m

theorem Distinct.before (hreach : Reachable (runtimeSystem ext) s)
    (h : (runtimeSystem ext).step s a = some s') (hd : Distinct s') : Distinct s := by
  intro m m' x x' hm hm' hp hp' hid
  obtain ⟨y, hy, hnext⟩ := step_model hreach h hm
  obtain ⟨y', hy', hnext'⟩ := step_model hreach h hm'
  refine hd m m' y y' hy hy' (hnext.published hp) (hnext'.published hp') ?_
  rw [hnext.id, hnext'.id, hid]

theorem ModelsStep.published_before (h : ModelsStep ext s a s') {m : ℕ} {x' : Model}
    (hm : s'.models[m]? = some x') (hp : x'.published = true) :
    (∃ x, s.models[m]? = some x ∧ x.published = true) ∨
    ∃ footprint, s'.ledger.resident.lookup x'.loaded.id = some ⟨m, footprint⟩ := by
  cases h with
  | same hmodels =>
    rw [hmodels] at hm
    exact .inl ⟨x', hm, hp⟩
  | built hnew hmodels =>
    rw [hmodels] at hm
    rcases Slots.get_push_cases hm with ⟨-, rfl⟩ | hm
    · cases hp
    · exact .inl ⟨x', hm, hp⟩
  | acted htaken hx hstep hmodels =>
    rw [hmodels] at hm
    rcases Slots.get_set_cases hm with ⟨rfl, rfl⟩ | ⟨-, hm⟩
    · exact .inl ⟨_, hx, hp⟩
    · exact .inl ⟨x', hm, hp⟩
  | published footprint hx hmodels hentry =>
    rw [hmodels] at hm
    rcases Slots.get_set_cases hm with ⟨rfl, rfl⟩ | ⟨-, hm⟩
    · exact .inr ⟨_, hentry⟩
    · exact .inl ⟨x', hm, hp⟩

theorem step_held (hreach : Reachable (runtimeSystem ext) s) (hd : Distinct s') (hs : Held s)
    (h : (runtimeSystem ext).step s a = some s') : Held s' := by
  intro m x' hm' hp' hphase'
  rcases (step_models h).published_before hm' hp' with ⟨x, hm, hp⟩ | ⟨footprint, hentry⟩
  · obtain ⟨y, hy, hnext⟩ := step_model hreach h hm
    obtain rfl : y = x' := Option.some.inj (hy.symm.trans hm')
    have hphase : x.loaded.phase ≠ .unloaded := fun he => hphase' (hnext.unloaded he)
    obtain ⟨entry, hl, rfl⟩ := hs m x hm hp hphase
    rw [hnext.id]
    rcases (step_resident h).entry hl with hl' | ⟨k, u, outcome, -, hk, hid, hpc, -, -⟩
    · exact ⟨entry, hl', rfl⟩
    · -- The call that forgets it resolved an unloaded model of the same identifier.
      obtain ⟨m', z, hmodel, hz, hzphase⟩ := (reachable_placed hreach).removing k u outcome hk hpc
      obtain ⟨z', hz', hzid, hzp⟩ := (reachable_placed hreach).resolved k u m' hk hmodel
      obtain rfl : z = z' := Option.some.inj (hz.symm.trans hz')
      obtain rfl : entry.model = m' :=
        hd.before hreach h _ _ x z hm hz hp hzp (by rw [hzid, hid])
      obtain rfl : x = z := Option.some.inj (hm.symm.trans hz)
      exact absurd hzphase hphase
  · exact ⟨⟨m, footprint⟩, hentry, rfl⟩

theorem reachable_held (h : Reachable (runtimeSystem ext) s) (hd : Distinct s) : Held s := by
  induction h with
  | init hi =>
    obtain ⟨limits, rfl⟩ := hi
    intro m x hm
    simp [withLimits] at hm
  | step hreach _ hst ih => exact step_held hreach hd (ih (hd.before hreach hst)) hst

/-! ### What stays accounted for -/

/-- An attempt to stop the worker of the load returned an error: an attempt of the load
itself, or of an unload of the model that was built around the worker. -/
def RuntimeState.StopFailed (s : RuntimeState) (call : LoadCall) : Prop :=
  call.stopFailed = true ∨
  ∃ m x err, call.built = some m ∧ s.models[m]? = some x ∧ .error err ∈ x.loaded.stopResults

/-- The load returned an error, was abandoned, or had its model handed back. -/
def LoadPc.failed : LoadPc → Bool
  | .returned (.error _) | .dropped | .panicked | .rejected _ _ | .tearing _ _ _ => true
  | _ => false

def RuntimeState.Accounts (s : RuntimeState) (call : LoadCall)
    (footprint : ResourceFootprint) : Prop :=
  (∃ claim, call.reserved = some claim ∧ s.ledger.pending.lookup claim.1 = some footprint) ∨
  ∃ id entry, call.pc = .returned (.ok id) ∧ s.ledger.resident.lookup id = some entry ∧
    call.built = some entry.model ∧ entry.footprint = footprint

/-- A published model that failed to stop is accounted for at what its load reserved. -/
theorem returned_accounted (hs : Reachable (runtimeSystem ext) s) (hfew : s.allocated ≤ 2 ^ 64)
    (hd : Distinct s) {j : ℕ} {call : LoadCall} {id : InstanceId} (hj : s.loads[j]? = some call)
    (hpc : call.pc = .returned (.ok id)) (hstop : s.StopFailed call) :
    ∃ footprint, call.footprint = some footprint ∧ s.Accounts call footprint := by
  have hmanned := reachable_manned hs
  have hworker := hmanned.worker j call hj
  rw [hpc] at hworker
  obtain ⟨m, x, hb, hm, hid, hp⟩ := hmanned.returned j call id hj hpc
  -- An unloaded model has one stop behind it, which came out well.
  have hphase : x.loaded.phase ≠ .unloaded := by
    intro hunloaded
    rcases hstop with hf | ⟨m', y, err, hb', hm', herr⟩
    · rw [show call.stopFailed = false from hworker] at hf
      cases hf
    · obtain rfl : m = m' := Option.some.inj (hb.symm.trans hb')
      obtain rfl : x = y := Option.some.inj (hm.symm.trans hm')
      have hok : x.loaded.stopResults = [.ok ()] :=
        (LoadedModel.reachable_teardown (model_reachable hs hm)).unloaded hunloaded
      rw [hok] at herr
      cases List.mem_singleton.mp herr
  obtain ⟨entry, hl, rfl⟩ := reachable_held hs hd m x hm hp hphase
  rw [hid] at hl
  rcases (reachable_backed hs hfew).2 j call id hj hpc with ⟨entry', hl', hf⟩ | hforgot
  · obtain rfl : entry = entry' := Option.some.inj (hl.symm.trans hl')
    exact ⟨entry.footprint, hf, .inr ⟨id, entry, hpc, hl, hb, rfl⟩⟩
  -- A call that forgot the identifier resolved this model, as identifiers are distinct.
  · obtain ⟨k, m', u, y, outcome, hk, hu, -, hmodel, hy, hyphase⟩ := hforgot
    obtain ⟨y', hy', hyid, hyp⟩ := (reachable_placed hs).resolved k u m' hk hmodel
    obtain rfl : y = y' := Option.some.inj (hy.symm.trans hy')
    obtain rfl : entry.model = m' := hd _ _ x y hm hy hp hyp (by rw [hid, hyid, hu])
    obtain rfl : x = y := Option.some.inj (hm.symm.trans hy)
    exact absurd hyphase hphase

/-- A load that has failed has given its claim back, whatever became of its worker. -/
theorem failed_unaccounted (hs : Reachable (runtimeSystem ext) s) {j : ℕ} {call : LoadCall}
    (hj : s.loads[j]? = some call) (hfailed : call.pc.failed = true) (footprint : ResourceFootprint) :
    ¬ s.Accounts call footprint := by
  have hg := reachable_guarded hs j call hj
  have hnone : call.reserved = none ∧ ∀ id, call.pc ≠ .returned (.ok id) := by
    cases hpc : call.pc with
    | returned result =>
      rw [hpc] at hg hfailed
      cases result with
      | ok id => cases hfailed
      | error err => exact ⟨hg, fun id h => by cases h⟩
    | rejected | tearing | dropped | panicked =>
      rw [hpc] at hg
      exact ⟨hg, fun id h => by cases h⟩
    | _ =>
      rw [hpc] at hfailed
      cases hfailed
  rintro (⟨claim, hr, -⟩ | ⟨id, entry, hpc, -⟩)
  · rw [hnone.1] at hr
    cases hr
  · exact hnone.2 id hpc

theorem kept_accounted (hs : Reachable (runtimeSystem ext) s) (hfew : s.allocated ≤ 2 ^ 64)
    (hd : Distinct s) {j : ℕ} {call : LoadCall} (hj : s.loads[j]? = some call)
    (hstop : s.StopFailed call) (hkept : call.pc.failed = false) :
    ∃ footprint, call.footprint = some footprint ∧ s.Accounts call footprint := by
  have hg := reachable_guarded hs j call hj
  have hw := (reachable_manned hs).worker j call hj
  have hpending : (∃ claim, call.reserved = some claim) →
      ∃ footprint, call.footprint = some footprint ∧ s.Accounts call footprint := by
    rintro ⟨claim, hr⟩
    exact ⟨claim.2, hg.footprint hr,
      .inl ⟨claim, hr, (reachable_accounted hs hfew).held hj hr⟩⟩
  have huntried : call.stopFailed = false ∧ call.built = none → False := by
    rintro ⟨hf, hb⟩
    rcases hstop with ht | ⟨m, x, err, hb', -⟩
    · rw [hf] at ht
      cases ht
    · rw [hb] at hb'
      cases hb'
  cases hpc : call.pc with
  | sizing | reserving =>
    rw [hpc] at hw
    exact (huntried hw).elim
  | releasing result =>
    rw [hpc] at hw
    rcases hstop with ht | ⟨m, x, err, hb', -⟩
    · exact hpending (hw.2 ht)
    · rw [hw.1] at hb'
      cases hb'
  | returned result =>
    cases result with
    | ok id => exact returned_accounted hs hfew hd hj hpc hstop
    | error err =>
      rw [hpc] at hkept
      cases hkept
  | rejected | tearing | dropped | panicked =>
    rw [hpc] at hkept
    cases hkept
  | _ =>
    rw [hpc] at hg
    obtain ⟨claim, hr, -⟩ := hg
    exact hpending ⟨claim, hr⟩

/-- A worker that could not be stopped stays accounted for exactly until its load fails. -/
theorem unstopped_accounted (hs : Reachable (runtimeSystem ext) s) (hfew : s.allocated ≤ 2 ^ 64)
    (hd : Distinct s) {j : ℕ} {call : LoadCall} (hj : s.loads[j]? = some call)
    (hstop : s.StopFailed call) :
    (∃ footprint, call.footprint = some footprint ∧ s.Accounts call footprint) ↔
      call.pc.failed = false := by
  constructor
  · rintro ⟨footprint, -, haccounts⟩
    cases hpc : call.pc.failed with
    | false => rfl
    | true => exact absurd haccounts (failed_unaccounted hs hj hpc footprint)
  · exact kept_accounted hs hfew hd hj hstop

def sampleId : InstanceId := .generate [7]

def sampleFailure : BackendError := .worker "not killed" none ""

def untilChecked (k m c : ℕ) (stopped : Except BackendError Unit) : List RuntimeAction :=
  [.stepUnload k .require, .stepUnload k .begin, .onModel m (.stepUnload c (.setDeadline 0)),
    .onModel m (.stepUnload c (.decide 0)), .onModel m (.stepUnload c .callStop),
    .onModel m (.stepUnload c (.stopped stopped)), .onModel m (.stepUnload c .finish),
    .stepUnload k .outcome, .stepUnload k .check]

def failedUnload : List RuntimeAction :=
  .load "a" :: untilLoaded 0 4 [7] ++
    .unloadWithin sampleId 0 :: untilChecked 0 0 0 (.error sampleFailure)

theorem unstopped_accounted_failedUnload :
    ∃ s, (runtimeSystem sampleExternals).run (.withLimits .default) failedUnload = some s ∧
      ∃ call, s.loads[0]? = some call ∧ s.StopFailed call ∧
        ∃ footprint, call.footprint = some footprint ∧ s.Accounts call footprint := by
  obtain ⟨s, hrun, hallocated, hmodels, call, hj, hkept, x, hb, hx, hresults⟩ :
      ∃ s, (runtimeSystem sampleExternals).run (.withLimits .default) failedUnload = some s ∧
        s.allocated = 1 ∧ s.models.length = 1 ∧
        ∃ call, s.loads[0]? = some call ∧ call.pc.failed = false ∧
          ∃ x : Model, call.built = some 0 ∧ s.models[0]? = some x ∧
            x.loaded.stopResults = [.error sampleFailure] :=
    ⟨_, rfl, rfl, rfl, _, rfl, rfl, _, rfl, rfl, rfl⟩
  have hd : Distinct s := by
    intro m m' y y' hm hm' _ _ _
    obtain ⟨hlt, -⟩ := List.getElem?_eq_some_iff.mp hm
    obtain ⟨hlt', -⟩ := List.getElem?_eq_some_iff.mp hm'
    omega
  have hstop : s.StopFailed call :=
    .inr ⟨0, x, sampleFailure, hb, hx, by rw [hresults]; exact List.mem_singleton.mpr rfl⟩
  have hs := reachable_of_withLimits hrun
  exact ⟨s, hrun, call, hj, hstop, (unstopped_accounted hs (by omega) hd hj hstop).mpr hkept⟩

/-- Two unloads of one model; the slower one comes back after another model has taken the
identifier, could not be stopped, and loses its entry to it. -/
def staleUnload : List RuntimeAction :=
  .load "a" :: untilLoaded 0 4 [7] ++
    .unloadWithin sampleId 0 :: .unloadWithin sampleId 0 :: .stepUnload 1 .require ::
      untilChecked 0 0 0 (.ok ()) ++
    .stepUnload 0 .remove :: .stepUnload 1 .begin :: .stepUnload 1 .outcome ::
      .load "b" :: untilLoaded 1 6 [7] ++
    .unloadWithin sampleId 0 :: untilChecked 2 1 0 (.error sampleFailure) ++
    [.stepUnload 1 .check, .stepUnload 1 .remove]

/-- A load that gives its claim back leaves its worker unaccounted for; and where numbers or
identifiers are given out twice, so may one that does not. -/
theorem unstopped_forgotten :
    (¬ ∀ (ext : Externals) (s : RuntimeState), Reachable (runtimeSystem ext) s →
      ∀ (j : ℕ) (call : LoadCall) (footprint : ResourceFootprint), s.loads[j]? = some call →
        s.StopFailed call → call.footprint = some footprint → footprint ∈ s.ledger.footprints) ∧
    (¬ ∀ (ext : Externals) (s : RuntimeState), Reachable (runtimeSystem ext) s → Distinct s →
      ∀ (j : ℕ) (call : LoadCall) (footprint : ResourceFootprint), s.loads[j]? = some call →
        s.StopFailed call → call.pc.failed = false → call.footprint = some footprint →
        footprint ∈ s.ledger.footprints) ∧
    ¬ ∀ (ext : Externals) (s : RuntimeState), Reachable (runtimeSystem ext) s →
      s.allocated ≤ 2 ^ 64 →
      ∀ (j : ℕ) (call : LoadCall) (footprint : ResourceFootprint), s.loads[j]? = some call →
        s.StopFailed call → call.pc.failed = false → call.footprint = some footprint →
        footprint ∈ s.ledger.footprints := by
  refine ⟨fun hclaim => ?_, fun hclaim => ?_, fun hclaim => ?_⟩
  · obtain ⟨s, hrun, hnone, call, hj, hstop, hf⟩ :
        ∃ s, (runtimeSystem sampleExternals).run (.withLimits .default)
            (untilParked ++ [.stepLoad 0 (.flushed ""), .stepLoad 0 .release]) = some s ∧
          s.ledger.footprints = [] ∧
          ∃ call, s.loads[0]? = some call ∧ call.stopFailed = true ∧
            call.footprint = some (.fromContainerSize 4) :=
      ⟨_, rfl, rfl, _, rfl, rfl, rfl⟩
    have hs := reachable_of_withLimits hrun
    have hmem := hclaim sampleExternals s hs 0 call _ hj (.inl hstop) hf
    rw [hnone] at hmem
    cases hmem
  · obtain ⟨t, hreach, -, hpending, hresident, hmodels, hfirst, -⟩ := parked_overwritten
    have hd : Distinct t := by
      intro m m' x x' hm
      rw [hmodels] at hm
      cases hm
    have hmem := hclaim sampleExternals t hreach hd 0 parkedLoad _ hfirst (.inl rfl) rfl rfl
    rw [Ledger.footprints, hpending, hresident] at hmem
    cases List.mem_singleton.mp hmem
  · obtain ⟨s, hrun, hnone, hallocated, call, hj, hpc, hf, hb, x, hx, hresults⟩ :
        ∃ s, (runtimeSystem sampleExternals).run (.withLimits .default) staleUnload = some s ∧
          s.ledger.footprints = [] ∧ s.allocated = 2 ∧
          ∃ call, s.loads[1]? = some call ∧ call.pc.failed = false ∧
            call.footprint = some (.fromContainerSize 6) ∧ call.built = some 1 ∧
            ∃ x : Model, s.models[1]? = some x ∧
              x.loaded.stopResults = [.error sampleFailure] :=
      ⟨_, rfl, rfl, rfl, _, rfl, rfl, rfl, rfl, _, rfl, rfl⟩
    have hs := reachable_of_withLimits hrun
    have hstop : s.StopFailed call :=
      .inr ⟨1, x, sampleFailure, hb, hx, by rw [hresults]; exact List.mem_singleton.mpr rfl⟩
    have hmem := hclaim sampleExternals s hs (by omega) 1 call _ hj hstop hpc hf
    rw [hnone] at hmem
    cases hmem

end MehoyRuntime.Runtime
