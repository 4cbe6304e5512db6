import MehoyRuntime.Runtime.Accounting
import MehoyRuntime.Runtime.Teardown

/-!
# Models, their entries and the calls that unload them

An entry stands for a published model under that model's identifier, and so does what an
unload call resolved. An unload call forgets an entry only after it saw its model unloaded.
-/

namespace MehoyRuntime.Runtime
open MehoyRuntime.Core MehoyRuntime.Stream TransitionSystem KeyedTable RuntimeState
variable {ext : Externals} {s s' t : RuntimeState} {a : RuntimeAction}

/-! ### Resident entries -/

/-- What a step can do to the resident entries: nothing, one more under an identifier
nobody holds, or the one that an unload call was asked about is forgotten. -/
inductive ResidentStep (s : RuntimeState) (a : RuntimeAction) (s' : RuntimeState) : Prop
  | same (hresident : s'.ledger.resident = s.ledger.resident)
  | inserted {j call m model claim footprint} (ha : a = .stepLoad j .fulfil)
      (hj : s.loads[j]? = some call) (hpc : call.pc = .fulfilling m)
      (hm : s.models[m]? = some model) (hclaim : call.reserved = some claim)
      (hpending : s.ledger.pending.lookup claim.1 = some footprint)
      (hvacant : s.ledger.resident.lookup model.loaded.id = none)
      (hresident : s'.ledger.resident =
        s.ledger.resident.insert model.loaded.id ⟨m, footprint⟩)
      (hloads : s'.loads = s.loads.set j (call.settled.goto (.returned (.ok model.loaded.id))))
      (hmodels : s'.models[m]? = some { model with published := true })
  | removed {k u m outcome} (ha : a = .stepUnload k .remove) (hk : s.unloads[k]? = some u)
      (hmodel : u.model = some m) (hpc : u.pc = .removing outcome)
      (hresident : s'.ledger.resident = s.ledger.resident.erase u.id)
      (hunloads : s'.unloads = s.unloads.set k { u with pc := .returned (.ok outcome) })

theorem LoadStep.resident {j : ℕ} {call : LoadCall} {b : LoadAction}
    (hj : s.loads[j]? = some call) (h : LoadStep ext s j call b s') :
    ResidentStep s (.stepLoad j b) s' := by
  cases h with
  | refused | built | torn | inside => exact .same rfl
  | reserved hpc hreserve =>
    obtain ⟨-, -, rfl⟩ := Ledger.reserve_ok hreserve
    exact .same rfl
  | @fulfilled m model claim id ledger hpc hm hclaim hfulfil =>
    rcases s.ledger.fulfil_cases claim.1 model.loaded.id m with
      ⟨footprint, hpending, hvacant, he⟩ | ⟨reason, he⟩
    · rw [hfulfil] at he
      cases he
      have hmodels := publish_models (s := { s with ledger := ⟨s.ledger.pending.erase claim.1,
        s.ledger.resident.insert model.loaded.id ⟨m, footprint⟩, s.ledger.nextReservation⟩ }) hm
      rw [publish_frame]
      refine .inserted rfl hj hpc hm hclaim hpending hvacant rfl rfl ?_
      exact (congrArg (·[m]?) hmodels).trans (Slots.get_set_self hm _)
    · rw [hfulfil] at he
      cases he
  | @rejected m model claim reason ledger hpc hm hclaim hfulfil =>
    rcases s.ledger.fulfil_cases claim.1 model.loaded.id m with
      ⟨footprint, hpending, hvacant, he⟩ | ⟨reason', he⟩
    · rw [hfulfil] at he
      cases he
    · rw [hfulfil] at he
      cases he
      exact .same rfl
  | teardown hpc hact | abandoned hpc hact =>
    rw [act_frame hact]
    exact .same rfl
  | released hpc =>
    refine .same ?_
    change (s.afterRelease call).resident = s.ledger.resident
    unfold afterRelease
    split <;> rfl

theorem step_resident (h : (runtimeSystem ext).step s a = some s') : ResidentStep s a s' := by
  cases step_cases h with
  | load | unloadWithin => exact .same rfl
  | ofLoad hj hstep => exact hstep.resident hj
  | ofUnload hk hstep =>
    cases hstep with
    | begun hmodel hpc hact | dropped hmodel hpc hact =>
      rw [act_frame hact]
      exact .same rfl
    | removed hmodel hpc => exact .removed rfl hk hmodel hpc rfl rfl
    | _ => exact .same rfl
  | ofModel htaken hfree hact =>
    rw [act_frame hact]
    exact .same rfl

theorem LoadStep.not_ended {j : ℕ} {call : LoadCall} {b : LoadAction}
    (h : LoadStep ext s j call b s') (result : Except RuntimeError InstanceId) :
    call.pc ≠ .returned result := by
  intro hpc
  cases h with
  | inside hnext =>
    rw [hpc] at hnext
    cases b <;> simp [LoadCall.next, LoadCall.suspended, hpc] at hnext
  | _ => simp_all

theorem UnloadingStep.not_ended {k : ℕ} {u : Unloading} {b : UnloadingAction}
    (h : UnloadingStep ext s k u b s') (result : Except RuntimeError UnloadOutcome) :
    u.pc ≠ .returned result := by
  intro hpc
  cases h <;> simp_all

/-- What a step makes of an unload call. It resolves its model once, and is about to
forget the entry only where it sees that model unloaded. -/
structure Unloading.Next (s : RuntimeState) (u u' : Unloading) : Prop where
  id : u'.id = u.id
  resolving : u'.pc ≠ .requiring
  model : u'.model = u.model ∨ ∃ m, u'.model = some m ∧ s.require u.id = .ok m
  removing : ∀ outcome, u'.pc = .removing outcome →
    ∃ m x, u'.model = some m ∧ s.models[m]? = some x ∧ x.loaded.phase = .unloaded

theorem UnloadingStep.unloads {k : ℕ} {u : Unloading} {b : UnloadingAction}
    (h : UnloadingStep ext s k u b s') :
    ∃ u' : Unloading, s'.unloads = s.unloads.set k u' ∧ u.Next s u' := by
  cases h with
  | required hpc hm => exact ⟨_, rfl, rfl, nofun, .inr ⟨_, rfl, hm⟩, nofun⟩
  | begun hmodel hpc hact | dropped hmodel hpc hact =>
    rw [act_frame hact]
    exact ⟨_, rfl, rfl, nofun, .inl rfl, nofun⟩
  | gone hmodel hpc hm hphase =>
    exact ⟨_, rfl, rfl, nofun, .inl rfl, fun _ _ => ⟨_, _, hmodel, hm, hphase⟩⟩
  | _ => exact ⟨_, rfl, rfl, nofun, .inl rfl, nofun⟩

theorem LoadStep.unloads {j : ℕ} {call : LoadCall} {b : LoadAction}
    (h : LoadStep ext s j call b s') : s'.unloads = s.unloads := by
  cases h with
  | fulfilled =>
    rw [publish_frame]
    rfl
  | teardown hpc hact | abandoned hpc hact =>
    rw [act_frame hact]
    rfl
  | _ => rfl

theorem step_returned (h : (runtimeSystem ext).step s a = some s') {j : ℕ} {call : LoadCall}
    {result : Except RuntimeError InstanceId} (hg : Guarded s) (hj : s.loads[j]? = some call)
    (hpc : call.pc = .returned result) : s'.loads[j]? = some call := by
  cases step_cases h with
  | load artifact => exact Slots.get_push_of_get hj _
  | unloadWithin id drain => exact hj
  | @ofLoad j' call' b s' hj' hstep =>
    have hne : j ≠ j' := by
      rintro rfl
      obtain rfl : call = call' := Option.some.inj (hj.symm.trans hj')
      exact hstep.not_ended _ hpc
    obtain ⟨after, hloads, -⟩ := hstep.guard (hg _ _ hj')
    rw [hloads, List.getElem?_set_ne hne.symm]
    exact hj
  | ofUnload hk hstep =>
    rw [hstep.loads]
    exact hj
  | ofModel htaken hfree hact =>
    rw [act_frame hact]
    exact hj

theorem step_unloaded (h : (runtimeSystem ext).step s a = some s') {k : ℕ} {u : Unloading}
    {result : Except RuntimeError UnloadOutcome} (hk : s.unloads[k]? = some u)
    (hpc : u.pc = .returned result) : s'.unloads[k]? = some u := by
  cases step_cases h with
  | load artifact => exact hk
  | unloadWithin id drain => exact Slots.get_push_of_get hk _
  | ofLoad hj hstep =>
    rw [hstep.unloads]
    exact hk
  | @ofUnload k' u' b s' hk' hstep =>
    have hne : k ≠ k' := by
      rintro rfl
      obtain rfl : u = u' := Option.some.inj (hk.symm.trans hk')
      exact hstep.not_ended _ hpc
    obtain ⟨after, hunloads, -⟩ := hstep.unloads
    rw [hunloads, List.getElem?_set_ne hne.symm]
    exact hk
  | ofModel htaken hfree hact =>
    rw [act_frame hact]
    exact hk

/-! ### Models -/

structure Model.Next (x x' : Model) : Prop where
  id : x'.loaded.id = x.loaded.id
  published : x.published = true → x'.published = true
  phase : LoadedModel.Succeeds x.loaded.phase x'.loaded.phase

theorem Model.Next.refl (x : Model) : x.Next x :=
  ⟨rfl, fun hp => hp, .refl _⟩

theorem Model.Next.unloaded {x x' : Model} (h : x.Next x') (hp : x.loaded.phase = .unloaded) :
    x'.loaded.phase = .unloaded := by
  have hphase := h.phase
  rw [hp] at hphase
  exact hphase.symm

theorem Model.Next.unloadFailed {x x' : Model} (h : x.Next x')
    (hp : x.loaded.phase = .unloadFailed) : x'.loaded.phase = .unloadFailed := by
  have hphase := h.phase
  rw [hp] at hphase
  exact hphase.symm

theorem step_model (hreach : Reachable (runtimeSystem ext) s)
    (h : (runtimeSystem ext).step s a = some s') {m : ℕ} {x : Model}
    (hm : s.models[m]? = some x) : ∃ x', s'.models[m]? = some x' ∧ x.Next x' := by
  cases step_models h with
  | same hmodels => exact ⟨x, by rw [hmodels, hm], .refl x⟩
  | built hnew hmodels => exact ⟨x, by rw [hmodels]; exact Slots.get_push_of_get hm _, .refl x⟩
  | @acted n b y loaded htaken hy hstep hmodels =>
    rcases eq_or_ne m n with rfl | hne
    · obtain rfl : x = y := Option.some.inj (hm.symm.trans hy)
      have hteardown := LoadedModel.reachable_teardown (model_reachable hreach hm)
      exact ⟨{ x with loaded := loaded }, by rw [hmodels]; exact Slots.get_set_self hm _,
        LoadedModel.step_id hstep, fun hp => hp, LoadedModel.step_phase hteardown hstep⟩
    · exact ⟨x, by rw [hmodels, List.getElem?_set_ne hne.symm, hm], .refl x⟩
  | @published n y footprint hy hmodels hentry =>
    rcases eq_or_ne m n with rfl | hne
    · obtain rfl : x = y := Option.some.inj (hm.symm.trans hy)
      exact ⟨{ x with published := true }, by rw [hmodels]; exact Slots.get_set_self hm _,
        rfl, fun _ => rfl, .refl _⟩
    · exact ⟨x, by rw [hmodels, List.getElem?_set_ne hne.symm, hm], .refl x⟩

/-- What entries and unload calls stand for. -/
structure Placed (s : RuntimeState) : Prop where
  entry : ∀ id entry, s.ledger.resident.lookup id = some entry →
    ∃ x, s.models[entry.model]? = some x ∧ x.loaded.id = id ∧ x.published = true
  unresolved : ∀ (k : ℕ) (u : Unloading), s.unloads[k]? = some u → u.pc = .requiring →
    u.model = none
  resolved : ∀ (k : ℕ) (u : Unloading) (m : ℕ), s.unloads[k]? = some u → u.model = some m →
    ∃ x, s.models[m]? = some x ∧ x.loaded.id = u.id ∧ x.published = true
  removing : ∀ (k : ℕ) (u : Unloading) (outcome : UnloadOutcome), s.unloads[k]? = some u →
    u.pc = .removing outcome →
    ∃ m x, u.model = some m ∧ s.models[m]? = some x ∧ x.loaded.phase = .unloaded

theorem RuntimeState.require_ok {id : InstanceId} {m : ℕ} (h : s.require id = .ok m) :
    ∃ entry, s.ledger.resident.lookup id = some entry ∧ entry.model = m := by
  unfold require resolve at h
  cases hl : s.ledger.resident.lookup id with
  | none =>
    rw [hl] at h
    cases h
  | some entry =>
    rw [hl] at h
    exact ⟨entry, rfl, Except.ok.inj h⟩

theorem step_unloads (h : (runtimeSystem ext).step s a = some s') {k : ℕ} {u' : Unloading}
    (hk : s'.unloads[k]? = some u') :
    (∃ id drain, u' = ⟨id, drain, none, .requiring⟩) ∨
    ∃ u, s.unloads[k]? = some u ∧ (u' = u ∨ u.Next s u') := by
  cases step_cases h with
  | load artifact => exact .inr ⟨u', hk, .inl rfl⟩
  | unloadWithin id drain =>
    rcases Slots.get_push_cases hk with ⟨-, rfl⟩ | hk
    · exact .inl ⟨id, drain, rfl⟩
    · exact .inr ⟨u', hk, .inl rfl⟩
  | ofLoad hj hstep =>
    rw [hstep.unloads] at hk
    exact .inr ⟨u', hk, .inl rfl⟩
  | ofUnload hj hstep =>
    obtain ⟨after, hunloads, hnext⟩ := hstep.unloads
    rw [hunloads] at hk
    rcases Slots.get_set_cases hk with ⟨rfl, rfl⟩ | ⟨-, hk⟩
    · exact .inr ⟨_, hj, .inr hnext⟩
    · exact .inr ⟨u', hk, .inl rfl⟩
  | ofModel htaken hfree hact =>
    rw [act_frame hact] at hk
    exact .inr ⟨u', hk, .inl rfl⟩

theorem step_placed (hreach : Reachable (runtimeSystem ext) s) (hs : Placed s)
    (h : (runtimeSystem ext).step s a = some s') : Placed s' := by
  have hstill : ∀ {m : ℕ} {id : InstanceId}, (∃ x : Model, s.models[m]? = some x ∧
      x.loaded.id = id ∧ x.published = true) →
      ∃ x : Model, s'.models[m]? = some x ∧ x.loaded.id = id ∧ x.published = true := by
    rintro m id ⟨x, hx, hid, hp⟩
    obtain ⟨x', hx', hnext⟩ := step_model hreach h hx
    exact ⟨x', hx', hnext.id.trans hid, hnext.published hp⟩
  have hgone : ∀ {u : Unloading}, (∃ (m : ℕ) (x : Model), u.model = some m ∧
      s.models[m]? = some x ∧ x.loaded.phase = .unloaded) →
      ∃ (m : ℕ) (x : Model), u.model = some m ∧ s'.models[m]? = some x ∧
        x.loaded.phase = .unloaded := by
    rintro u ⟨m, x, hmodel, hx, hphase⟩
    obtain ⟨x', hx', hnext⟩ := step_model hreach h hx
    exact ⟨m, x', hmodel, hx', hnext.unloaded hphase⟩
  refine ⟨fun id entry hl => ?_, fun k u' hk hpc => ?_, fun k u' m hk hmodel => ?_,
    fun k u' outcome hk hpc => ?_⟩
  · cases step_resident h with
    | same hresident =>
      rw [hresident] at hl
      exact hstill (hs.entry id entry hl)
    | inserted ha hj hpc hm hclaim hpending hvacant hresident hloads hmodels =>
      rw [hresident] at hl
      rcases lookup_of_insert hl with ⟨rfl, rfl⟩ | ⟨-, hl⟩
      · exact ⟨_, hmodels, rfl, rfl⟩
      · exact hstill (hs.entry id entry hl)
    | removed ha hk hmodel hpc hresident hunloads =>
      rw [hresident] at hl
      exact hstill (hs.entry id entry (lookup_of_erase hl).2)
  · rcases step_unloads h hk with ⟨id, drain, rfl⟩ | ⟨u, hu, rfl | hnext⟩
    · rfl
    · exact hs.unresolved k u' hu hpc
    · exact absurd hpc hnext.resolving
  · rcases step_unloads h hk with ⟨id, drain, rfl⟩ | ⟨u, hu, rfl | hnext⟩
    · cases hmodel
    · exact hstill (hs.resolved k u' m hu hmodel)
    · rw [hnext.id]
      rcases hnext.model with he | ⟨m', hm', hrequire⟩
      · exact hstill (hs.resolved k u m hu (he ▸ hmodel))
      · obtain rfl : m' = m := Option.some.inj (hm'.symm.trans hmodel)
        obtain ⟨entry, hl, rfl⟩ := require_ok hrequire
        exact hstill (hs.entry u.id entry hl)
  · rcases step_unloads h hk with ⟨id, drain, rfl⟩ | ⟨u, hu, rfl | hnext⟩
    · cases hpc
    · exact hgone (hs.removing k u' outcome hu hpc)
    · exact hgone (hnext.removing outcome hpc)

theorem reachable_placed (h : Reachable (runtimeSystem ext) s) : Placed s := by
  refine h.invariant ?_ fun _ _ _ hreach hs _ hst => step_placed hreach hs hst
  rintro _ ⟨limits, rfl⟩
  refine ⟨fun id entry hl => ?_, fun k u hk => ?_, fun k u m hk => ?_, fun k u outcome hk => ?_⟩
  · cases hl
  · simp [withLimits] at hk
  · simp [withLimits] at hk
  · simp [withLimits] at hk

end MehoyRuntime.Runtime
