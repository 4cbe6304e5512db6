import MehoyRuntime.Runtime.Unstopped

/-!
# Unloading more than once

However many unload calls are made for a model, its worker is stopped once, and what came
of that decides the phase and the entry. A failed teardown is never retried.
-/

namespace MehoyRuntime.Runtime
open MehoyRuntime.Core MehoyRuntime.Stream TransitionSystem KeyedTable RuntimeState
variable {ext : Externals} {s s' t : RuntimeState} {a : RuntimeAction} {m : ℕ} {x : Model}

def UnloadingPc.early : UnloadingPc → Bool
  | .requiring | .resolved => true
  | _ => false

/-- Where a call can stand that begins on a model that failed to unload. -/
def RuntimeState.Refused (s : RuntimeState) (m : ℕ) : UnloadingPc → Prop
  | .requiring | .resolved | .dropped => True
  | .awaiting c => s.unloadPc m c = some (.returned (.ok .alreadyFailed))
  | .checking result => result = .ok .alreadyFailed
  | .returned result => result = .ok .alreadyFailed
  | .removing _ | .panicked => False

theorem step_unloadPc (h : (runtimeSystem ext).step s a = some s') {c : ℕ}
    {result : Except LoadError UnloadOutcome} (hc : s.unloadPc m c = some (.returned result)) :
    s'.unloadPc m c = some (.returned result) := by
  obtain ⟨x, hm, hcall⟩ := Option.bind_eq_some_iff.mp hc
  obtain ⟨call, hcall, hpc⟩ := Option.map_eq_some_iff.mp hcall
  have hend : call.executing = false := by
    unfold UnloadCall.executing
    rw [hpc]
  have hstill : ∀ {y : Model}, s'.models[m]? = some y → y.loaded.unloads[c]? = some call →
      s'.unloadPc m c = some (.returned result) := by
    intro y hy hcall'
    rw [unloadPc, hy, Option.bind_some, hcall', Option.map_some, hpc]
  cases step_models h with
  | same hmodels => exact hstill (by rw [hmodels, hm]) hcall
  | built hnew hmodels =>
    exact hstill (by rw [hmodels]; exact Slots.get_push_of_get hm _) hcall
  | @acted n b y loaded htaken hy hstep hmodels =>
    rcases eq_or_ne m n with rfl | hne
    · obtain rfl : x = y := Option.some.inj (hm.symm.trans hy)
      exact hstill (by rw [hmodels]; exact Slots.get_set_self hm _)
        (LoadedModel.step_ended hstep hcall hend)
    · exact hstill (by rw [hmodels, List.getElem?_set_ne hne.symm, hm]) hcall
  | @published n y footprint hy hmodels hentry =>
    rcases eq_or_ne m n with rfl | hne
    · obtain rfl : x = y := Option.some.inj (hm.symm.trans hy)
      exact hstill (y := { x with published := true })
        (by rw [hmodels]; exact Slots.get_set_self hm _) hcall
    · exact hstill (by rw [hmodels, List.getElem?_set_ne hne.symm, hm]) hcall

theorem RuntimeState.Refused.step (h : (runtimeSystem ext).step s a = some s')
    {pc : UnloadingPc} (hr : s.Refused m pc) : s'.Refused m pc := by
  cases pc with
  | awaiting c => exact step_unloadPc h hr
  | _ => exact hr

theorem begin_unloadPc (hm : s.models[m]? = some x) {drain : ℕ}
    (hact : s.act ext m (.beginUnload drain) = some s') :
    s'.unloadPc m (s.nextCall m) = some (x.loaded.begunCall drain).pc := by
  obtain ⟨y, loaded, hy, hstep, rfl⟩ := act_cases hact
  obtain rfl : x = y := Option.some.inj (hm.symm.trans hy)
  obtain rfl : x.loaded.beginUnload drain = loaded := Option.some.inj hstep
  have hself := Slots.get_set_self hm { x with loaded := x.loaded.beginUnload drain }
  have hnext : s.nextCall m = x.loaded.unloads.length := by
    rw [nextCall, hm]
    rfl
  rw [unloadPc, hself, Option.bind_some, hnext, LoadedModel.State.beginUnload_unloads,
    List.getElem?_concat_length, Option.map_some]

theorem begin_refused (hm : s.models[m]? = some x) (hfailed : x.loaded.phase = .unloadFailed)
    {drain : ℕ} (hact : s.act ext m (.beginUnload drain) = some s') :
    s'.unloadPc m (s.nextCall m) = some (.returned (.ok .alreadyFailed)) := by
  rw [begin_unloadPc hm hact, LoadedModel.State.begunCall, hfailed]
  rfl

/-- What a call that has its model knows where it is. -/
theorem refused_at {u : Unloading} {n : ℕ} {pc : UnloadingPc}
    (hr : u.model = some m → s.Refused m u.pc) (hmodel : u.model = some n)
    (hmodel' : u.model = some m) (hpc : u.pc = pc) : n = m ∧ s.Refused m pc := by
  refine ⟨Option.some.inj (hmodel.symm.trans hmodel'), ?_⟩
  rw [← hpc]
  exact hr hmodel'

theorem UnloadingStep.retry {k : ℕ} {u u' : Unloading} {b : UnloadingAction}
    (hm : s.models[m]? = some x) (hfailed : x.loaded.phase = .unloadFailed)
    (hk : s.unloads[k]? = some u) (hrequiring : u.pc = .requiring → u.model = none)
    (hr : u.model = some m → s.Refused m u.pc) (h : UnloadingStep ext s k u b s')
    (hk' : s'.unloads[k]? = some u') (hmodel' : u'.model = some m) : s'.Refused m u'.pc := by
  cases h with
  | unknown hpc herr =>
    obtain rfl := Slots.eq_of_get_set hk rfl hk'
    rw [show u.model = some m from hmodel'] at hrequiring
    cases hrequiring hpc
  | required hpc hrequire =>
    obtain rfl := Slots.eq_of_get_set hk rfl hk'
    trivial
  | unpolled hpc =>
    obtain rfl := Slots.eq_of_get_set hk rfl hk'
    trivial
  | @begun n s₁ hmodel hpc hact =>
    obtain rfl := Slots.eq_of_get_set hk (act_unloads hact) hk'
    obtain rfl : n = m := Option.some.inj (hmodel.symm.trans hmodel')
    have hrefused := begin_refused hm hfailed hact
    exact hrefused
  | @finished n c result hmodel hpc hresult =>
    obtain rfl := Slots.eq_of_get_set hk rfl hk'
    obtain ⟨rfl, hawaiting⟩ := refused_at hr hmodel hmodel' hpc
    have he := hawaiting.symm.trans hresult
    cases he
    rfl
  | @panicked n c hmodel hpc hresult =>
    obtain rfl := Slots.eq_of_get_set hk rfl hk'
    obtain ⟨rfl, hawaiting⟩ := refused_at hr hmodel hmodel' hpc
    have he := hawaiting.symm.trans hresult
    cases he
  | dropped hmodel hpc hact =>
    obtain rfl := Slots.eq_of_get_set hk (act_unloads hact) hk'
    trivial
  | @gone n outcome y hmodel hpc hy hphase =>
    obtain rfl := Slots.eq_of_get_set hk rfl hk'
    obtain rfl : n = m := Option.some.inj (hmodel.symm.trans hmodel')
    obtain rfl : x = y := Option.some.inj (hm.symm.trans hy)
    rw [hfailed] at hphase
    cases hphase
  | @kept n outcome y hmodel hpc hy hphase =>
    obtain rfl := Slots.eq_of_get_set hk rfl hk'
    obtain ⟨rfl, hchecking⟩ := refused_at hr hmodel hmodel' hpc
    cases hchecking
    rfl
  | @failed n err hmodel hpc =>
    obtain rfl := Slots.eq_of_get_set hk rfl hk'
    obtain ⟨rfl, hchecking⟩ := refused_at hr hmodel hmodel' hpc
    cases hchecking
  | @removed n outcome hmodel hpc =>
    obtain rfl := Slots.eq_of_get_set hk rfl hk'
    obtain ⟨rfl, hremoving⟩ := refused_at hr hmodel hmodel' hpc
    exact hremoving.elim

theorem step_retry (hreach : Reachable (runtimeSystem ext) s) (hm : s.models[m]? = some x)
    (hfailed : x.loaded.phase = .unloadFailed) (h : (runtimeSystem ext).step s a = some s')
    {k : ℕ} {u' : Unloading} (hk : s'.unloads[k]? = some u') (hmodel : u'.model = some m)
    (hs : ∀ u, s.unloads[k]? = some u → u.model = some m → s.Refused m u.pc) :
    s'.Refused m u'.pc := by
  have hsame : s.unloads[k]? = some u' → s'.Refused m u'.pc :=
    fun hu => (hs u' hu hmodel).step h
  cases step_cases h with
  | load artifact => exact hsame hk
  | unloadWithin id drain =>
    rcases Slots.get_push_cases hk with ⟨-, rfl⟩ | hu
    · cases hmodel
    · exact hsame hu
  | ofLoad hj hstep =>
    rw [hstep.unloads] at hk
    exact hsame hk
  | ofModel htaken hfree hact =>
    rw [act_frame hact] at hk
    exact hsame hk
  | @ofUnload j u b s' hj hstep =>
    rcases eq_or_ne k j with rfl | hne
    · exact hstep.retry hm hfailed hj ((reachable_placed hreach).unresolved k u hj) (hs u hj)
        hk hmodel
    · obtain ⟨after, hunloads, -⟩ := hstep.unloads
      rw [hunloads, List.getElem?_set_ne hne.symm] at hk
      exact hsame hk

/-- A failed teardown is final: over every run the phase stays, and every call that had not
begun before can only be told. -/
theorem steps_retry (hs : Reachable (runtimeSystem ext) s) (hm : s.models[m]? = some x)
    (hfailed : x.loaded.phase = .unloadFailed) (h : Steps (runtimeSystem ext) s t) :
    (∃ y, t.models[m]? = some y ∧ y.loaded.phase = .unloadFailed) ∧
    ∀ (k : ℕ) (u : Unloading), t.unloads[k]? = some u → u.model = some m →
      (∀ u₀, s.unloads[k]? = some u₀ → u₀.pc.early = true) → t.Refused m u.pc := by
  induction h with
  | refl =>
    refine ⟨⟨x, hm, hfailed⟩, fun k u hk hmodel hearly => ?_⟩
    have he := hearly u hk
    cases hpc : u.pc with
    | requiring | resolved => trivial
    | _ =>
      rw [hpc] at he
      cases he
  | tail hsteps hst ih =>
    obtain ⟨⟨y, hy, hphase⟩, hcalls⟩ := ih
    have hreach := hsteps.reachable hs
    obtain ⟨y', hy', hnext⟩ := step_model hreach hst hy
    refine ⟨⟨y', hy', hnext.unloadFailed hphase⟩, fun k u hk hmodel hearly => ?_⟩
    exact step_retry hreach hy hphase hst hk hmodel
      fun u₀ hk₀ hmodel₀ => hcalls k u₀ hk₀ hmodel₀ hearly

theorem step_unload_ledger (hs : Reachable (runtimeSystem ext) s) (hm : s.models[m]? = some x)
    {k : ℕ} {u : Unloading} {b : UnloadingAction} (hk : s.unloads[k]? = some u)
    (hmodel : u.model = some m) (h : (runtimeSystem ext).step s (.stepUnload k b) = some s') :
    s'.ledger = s.ledger ∨
    (x.loaded.phase = .unloaded ∧ s'.ledger = s.ledger.remove x.loaded.id) := by
  obtain ⟨u', hk', hstep⟩ := stepUnload_cases h
  obtain rfl : u = u' := Option.some.inj (hk.symm.trans hk')
  cases hstep with
  | begun hmodel' hpc hact | dropped hmodel' hpc hact =>
    rw [act_frame hact]
    exact .inl rfl
  | @removed n outcome hmodel' hpc =>
    obtain ⟨m', y, hm', hy, hphase⟩ := (reachable_placed hs).removing k u outcome hk hpc
    obtain rfl : m = m' := Option.some.inj (hmodel.symm.trans hm')
    obtain rfl : x = y := Option.some.inj (hm.symm.trans hy)
    obtain ⟨z, hz, hid, -⟩ := (reachable_placed hs).resolved k u m hk hmodel
    obtain rfl : x = z := Option.some.inj (hm.symm.trans hz)
    refine .inr ⟨hphase, ?_⟩
    rw [hid]
    rfl
  | _ => exact .inl rfl

/-- Over any number of unload calls the worker of a model is stopped at most once; the
phase says how that stop came out; a call forgets the entry only of an unloaded model, and
until then the entry is there; and after a failed stop every later call is told so and
leaves the phase and the ledger alone. -/
theorem unloads_once (hs : Reachable (runtimeSystem ext) s) (hm : s.models[m]? = some x) :
    x.loaded.stopCalls ≤ 1 ∧
    (x.loaded.phase = .unloaded → x.loaded.stopResults = [.ok ()]) ∧
    (x.loaded.phase = .unloadFailed → ∃ err, x.loaded.stopResults = [.error err]) ∧
    (∀ (k : ℕ) (u : Unloading) (b : UnloadingAction) (s' : RuntimeState),
      s.unloads[k]? = some u → u.model = some m →
      (runtimeSystem ext).step s (.stepUnload k b) = some s' → s'.ledger = s.ledger ∨
      (x.loaded.phase = .unloaded ∧ s'.ledger = s.ledger.remove x.loaded.id)) ∧
    (Distinct s → x.published = true → x.loaded.phase ≠ .unloaded →
      ∃ entry, s.ledger.resident.lookup x.loaded.id = some entry ∧ entry.model = m) ∧
    (x.loaded.phase = .unloadFailed → ∀ t, Steps (runtimeSystem ext) s t →
      (∃ y, t.models[m]? = some y ∧ y.loaded.phase = .unloadFailed) ∧
      (∀ (k : ℕ) (u : Unloading) (result : Except RuntimeError UnloadOutcome),
        t.unloads[k]? = some u → u.model = some m →
        (∀ u₀ : Unloading, s.unloads[k]? = some u₀ → u₀.pc.early = true) →
        u.pc = .returned result → result = .ok .alreadyFailed) ∧
      ∀ (k : ℕ) (u : Unloading) (b : UnloadingAction) (t' : RuntimeState),
        t.unloads[k]? = some u → u.model = some m →
        (runtimeSystem ext).step t (.stepUnload k b) = some t' →
        t'.ledger = t.ledger ∧ t'.usage = t.usage) := by
  have hteardown := LoadedModel.reachable_teardown (model_reachable hs hm)
  refine ⟨hteardown.once, hteardown.unloaded, hteardown.failed,
    fun k u b s' hk hmodel hst => step_unload_ledger hs hm hk hmodel hst,
    fun hd => reachable_held hs hd m x hm, fun hfailed t ht => ?_⟩
  obtain ⟨⟨y, hy, hphase⟩, hcalls⟩ := steps_retry hs hm hfailed ht
  refine ⟨⟨y, hy, hphase⟩, fun k u result hk hmodel hearly hpc => ?_,
    fun k u b t' hk hmodel hst => ?_⟩
  · have hrefused := hcalls k u hk hmodel hearly
    rw [hpc] at hrefused
    exact hrefused
  · rcases step_unload_ledger (ht.reachable hs) hy hk hmodel hst with he | ⟨hunloaded, -⟩
    · exact ⟨he, congrArg Ledger.committed he⟩
    · rw [hphase] at hunloaded
      cases hunloaded

def retriedUnload : List RuntimeAction :=
  [.unloadWithin sampleId 0, .stepUnload 1 .require, .stepUnload 1 .begin, .stepUnload 1 .outcome,
    .stepUnload 1 .check]

theorem unloads_once_retried :
    ∃ s t, (runtimeSystem sampleExternals).run (.withLimits .default) failedUnload = some s ∧
      (runtimeSystem sampleExternals).run s retriedUnload = some t ∧
      ∃ u result, t.unloads[1]? = some u ∧ u.pc = .returned result ∧
        result = .ok .alreadyFailed ∧ t.usage = ⟨1, 0, 4⟩ := by
  obtain ⟨s, t, hrun, hretry, x, u, result, hm, hphase, hnone, hk, hmodel, hpc, husage⟩ :
      ∃ s t, (runtimeSystem sampleExternals).run (.withLimits .default) failedUnload = some s ∧
        (runtimeSystem sampleExternals).run s retriedUnload = some t ∧
        ∃ (x : Model) (u : Unloading) (result : _), s.models[0]? = some x ∧
          x.loaded.phase = .unloadFailed ∧ s.unloads[1]? = none ∧ t.unloads[1]? = some u ∧
          u.model = some 0 ∧ u.pc = .returned result ∧ t.usage = ⟨1, 0, 4⟩ :=
    ⟨_, _, rfl, rfl, _, _, _, rfl, rfl, rfl, rfl, rfl, rfl, rfl⟩
  have hs := reachable_of_withLimits hrun
  have hlater : ∀ u₀, s.unloads[1]? = some u₀ → u₀.pc.early = true := by
    intro u₀ h₀
    rw [hnone] at h₀
    cases h₀
  obtain ⟨-, -, -, -, -, hfailed⟩ := unloads_once hs hm
  obtain ⟨-, hcalls, -⟩ := hfailed hphase t (steps_of_run hretry)
  exact ⟨s, t, hrun, hretry, u, result, hk, hpc, hcalls 1 u result hk hmodel hlater hpc, husage⟩

end MehoyRuntime.Runtime
