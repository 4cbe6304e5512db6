import MehoyRuntime.Runtime.Retries
import MehoyRuntime.Runtime.Tracking

/-!
# Instances of a runtime

Who tears an instance down, and what its table of requests says, for the models of a
runtime and the calls that resolved them.
-/

namespace MehoyRuntime.Runtime
open MehoyRuntime.Core MehoyRuntime.Stream TransitionSystem KeyedTable RuntimeState
variable {ext : Externals} {s s' t : RuntimeState} {a : RuntimeAction} {m c : ℕ}

/-! ### Who waits for a teardown -/

/-- A call of `unload_within`, or a load whose model was handed back, waits for the unload
call `c` of the model `m`. -/
def RuntimeState.Awaits (s : RuntimeState) (m c : ℕ) : Prop :=
  (∃ (k : ℕ) (u : Unloading), s.unloads[k]? = some u ∧ u.model = some m ∧ u.pc = .awaiting c) ∨
  ∃ (j : ℕ) (call : LoadCall) (reason : String), s.loads[j]? = some call ∧
    call.pc = .tearing reason m c

def RuntimeState.AtWork (s : RuntimeState) (m c : ℕ) : Prop :=
  ∃ (x : Model) (call : UnloadCall), s.models[m]? = some x ∧ x.loaded.unloads[c]? = some call ∧
    call.executing = true

theorem RuntimeState.AtWork.not_over (h : s.AtWork m c)
    (hover : (∃ answer, s.unloadPc m c = some (.returned answer)) ∨
      s.unloadPc m c = some .panicked) : False := by
  obtain ⟨x, call, hm, hc, hex⟩ := h
  have hpc : s.unloadPc m c = some call.pc := by
    rw [unloadPc, hm, Option.bind_some, hc, Option.map_some]
  unfold UnloadCall.executing at hex
  rcases hover with ⟨answer, he⟩ | he
  · rw [Option.some.inj (hpc.symm.trans he)] at hex
    cases hex
  · rw [Option.some.inj (hpc.symm.trans he)] at hex
    cases hex

theorem act_atWork {n : ℕ} {b : LoadedModel.Action} (hact : s.act ext n b = some s')
    (h : s'.AtWork m c) :
    s.AtWork m c ∨ ∃ drain, b = .beginUnload drain ∧ m = n ∧ c = s.nextCall n := by
  obtain ⟨x', call', hm', hc, hex⟩ := h
  obtain ⟨x, loaded, hm, hstep, rfl⟩ := act_cases hact
  rcases Slots.get_set_cases hm' with ⟨rfl, rfl⟩ | ⟨-, hold⟩
  · rcases LoadedModel.step_calls hstep hc hex with ⟨call, hcall, hex', -⟩ | ⟨drain, hb, hlast, -⟩
    · exact .inl ⟨x, call, hm, hcall, hex'⟩
    · refine .inr ⟨drain, hb, rfl, ?_⟩
      rw [hlast, nextCall, hm]
      rfl
  · exact .inl ⟨x', call', hold, hc, hex⟩

theorem act_dropped {n k : ℕ} (hact : s.act ext n (.dropUnload k) = some s')
    (h : s'.AtWork n k) : False := by
  obtain ⟨x', call', hm', hc, hex⟩ := h
  obtain ⟨x, loaded, hm, hstep, rfl⟩ := act_cases hact
  have hx : _ = x' := Option.some.inj ((Slots.get_set_self hm _).symm.trans hm')
  subst hx
  cases LoadedModel.step_cases hstep with
  | kept hu => cases hu
  | dropped hcall =>
    have hdropped : _ = call' := Option.some.inj ((Slots.get_set_self hcall _).symm.trans hc)
    subst hdropped
    cases hex

theorem RuntimeState.Awaits.of_load {j : ℕ} {call call' : LoadCall} (hj : s.loads[j]? = some call)
    (hpc : ∀ reason, call.pc ≠ .tearing reason m c) (hloads : s'.loads = s.loads.set j call')
    (hunloads : s'.unloads = s.unloads) (h : s.Awaits m c) : s'.Awaits m c := by
  rcases h with ⟨k, u, hk, hu⟩ | ⟨i, x, reason, hi, hx⟩
  · exact .inl ⟨k, u, by rw [hunloads, hk], hu⟩
  · have hne : j ≠ i := by
      rintro rfl
      obtain rfl : call = x := Option.some.inj (hj.symm.trans hi)
      exact hpc reason hx
    exact .inr ⟨i, x, reason, by rw [hloads, List.getElem?_set_ne hne, hi], hx⟩

theorem RuntimeState.Awaits.of_unload {k : ℕ} {u u' : Unloading} (hk : s.unloads[k]? = some u)
    (hpc : u.model = some m → u.pc ≠ .awaiting c) (hunloads : s'.unloads = s.unloads.set k u')
    (hloads : s'.loads = s.loads) (h : s.Awaits m c) : s'.Awaits m c := by
  rcases h with ⟨i, v, hi, hmodel, hv⟩ | ⟨j, call, reason, hj, hcall⟩
  · have hne : k ≠ i := by
      rintro rfl
      obtain rfl : u = v := Option.some.inj (hk.symm.trans hi)
      exact hpc hmodel hv
    exact .inl ⟨i, v, by rw [hunloads, List.getElem?_set_ne hne, hi], hmodel, hv⟩
  · exact .inr ⟨j, call, reason, by rw [hloads, hj], hcall⟩

def Awaited (s : RuntimeState) : Prop := ∀ m c, s.AtWork m c → s.Awaits m c

theorem publish_atWork {n : ℕ} (h : (s.publish n).AtWork m c) : s.AtWork m c := by
  obtain ⟨x', call, hm', hc, hex⟩ := h
  unfold publish at hm'
  split at hm'
  · rename_i x hx
    rcases Slots.get_set_cases hm' with ⟨rfl, rfl⟩ | ⟨-, hold⟩
    · exact ⟨x, call, hx, hc, hex⟩
    · exact ⟨x', call, hold, hc, hex⟩
  · exact ⟨x', call, hm', hc, hex⟩

theorem built_atWork {call : LoadCall} {bytes : List UInt8}
    (h : (s.addModel (call.build bytes)).AtWork m c) : s.AtWork m c := by
  obtain ⟨x', unload, hm', hc, hex⟩ := h
  rcases Slots.get_push_cases hm' with ⟨-, rfl⟩ | hold
  · cases hc
  · exact ⟨x', unload, hold, hc, hex⟩

theorem LoadStep.awaited {j : ℕ} {call : LoadCall} {b : LoadAction} (hs : Awaited s)
    (hj : s.loads[j]? = some call) (h : LoadStep ext s j call b s') : Awaited s' := by
  intro m c hwork
  have hother : ∀ {pc : LoadPc}, call.pc = pc → (∀ reason, pc ≠ .tearing reason m c) →
      ∀ reason, call.pc ≠ .tearing reason m c := by
    rintro pc rfl hne
    exact hne
  cases h with
  | refused hpc hreserve | reserved hpc hreserve | released hpc =>
    exact (hs m c hwork).of_load hj (hother hpc nofun) rfl rfl
  | built hpc => exact (hs m c (built_atWork hwork)).of_load hj (hother hpc nofun) rfl rfl
  | @fulfilled n model claim id ledger hpc hm hclaim hfulfil =>
    have hbefore : ({ s with ledger := ledger } : RuntimeState).AtWork m c := publish_atWork hwork
    rw [publish_frame]
    exact (hs m c hbefore).of_load hj (hother hpc nofun) rfl rfl
  | rejected hpc hm hclaim hfulfil => exact (hs m c hwork).of_load hj (hother hpc nofun) rfl rfl
  | @teardown reason n s₁ hpc hact =>
    have hunloads := act_unloads hact
    rcases act_atWork hact hwork with hbefore | ⟨drain, -, rfl, rfl⟩
    · exact (hs m c hbefore).of_load hj (hother hpc nofun) (by rw [setLoad, act_loads hact])
        hunloads
    · refine .inr ⟨j, call.goto (.tearing reason m (s.nextCall m)), reason, ?_, rfl⟩
      rw [act_frame hact]
      exact Slots.get_set_self hj _
  | @torn reason n k result hpc hover hend =>
    refine (hs m c hwork).of_load hj (fun reason' hpc' => ?_) rfl rfl
    rw [hpc] at hpc'
    cases hpc'
    exact AtWork.not_over (s := s) hwork hover
  | @abandoned reason n k s₁ hpc hact =>
    have hunloads := act_unloads hact
    rcases act_atWork hact hwork with hbefore | ⟨drain, hb, -⟩
    · refine (hs m c hbefore).of_load hj (fun reason' hpc' => ?_)
        (by rw [setLoad, act_loads hact]) hunloads
      rw [hpc] at hpc'
      cases hpc'
      exact act_dropped hact hwork
    · cases hb
  | inside hnext =>
    refine (hs m c hwork).of_load hj (fun reason hpc => ?_) rfl rfl
    rw [hpc] at hnext
    cases b <;> simp [LoadCall.next, LoadCall.suspended, hpc] at hnext

theorem UnloadingStep.awaited {k : ℕ} {u : Unloading} {b : UnloadingAction} (hs : Awaited s)
    (hk : s.unloads[k]? = some u) (h : UnloadingStep ext s k u b s') : Awaited s' := by
  intro m c hwork
  have hother : ∀ {pc : UnloadingPc}, u.pc = pc → pc ≠ .awaiting c →
      u.model = some m → u.pc ≠ .awaiting c := by
    rintro pc rfl hne -
    exact hne
  cases h with
  | unknown hpc | required hpc | unpolled hpc =>
    exact (hs m c hwork).of_unload hk (hother hpc nofun) rfl rfl
  | gone hmodel hpc | kept hmodel hpc | failed hmodel hpc | removed hmodel hpc =>
    exact (hs m c hwork).of_unload hk (hother hpc nofun) rfl rfl
  | @begun n s₁ hmodel hpc hact =>
    have hloads := act_loads hact
    rcases act_atWork hact hwork with hbefore | ⟨drain, -, rfl, rfl⟩
    · exact (hs m c hbefore).of_unload hk (hother hpc nofun)
        (by rw [setUnload, act_unloads hact]) hloads
    · refine .inl ⟨k, { u with pc := .awaiting (s.nextCall m) }, ?_, hmodel, rfl⟩
      rw [act_frame hact]
      exact Slots.get_set_self hk _
  | @finished n i result hmodel hpc hresult =>
    refine (hs m c hwork).of_unload hk (fun hmodel' hpc' => ?_) rfl rfl
    obtain rfl : n = m := Option.some.inj (hmodel.symm.trans hmodel')
    rw [hpc] at hpc'
    cases hpc'
    exact AtWork.not_over (s := s) hwork (.inl ⟨result, hresult⟩)
  | @panicked n i hmodel hpc hresult =>
    refine (hs m c hwork).of_unload hk (fun hmodel' hpc' => ?_) rfl rfl
    obtain rfl : n = m := Option.some.inj (hmodel.symm.trans hmodel')
    rw [hpc] at hpc'
    cases hpc'
    exact AtWork.not_over (s := s) hwork (.inr hresult)
  | @dropped n i s₁ hmodel hpc hact =>
    have hloads := act_loads hact
    rcases act_atWork hact hwork with hbefore | ⟨drain, hb, -⟩
    · refine (hs m c hbefore).of_unload hk (fun hmodel' hpc' => ?_)
        (by rw [setUnload, act_unloads hact]) hloads
      obtain rfl : n = m := Option.some.inj (hmodel.symm.trans hmodel')
      rw [hpc] at hpc'
      cases hpc'
      exact act_dropped hact hwork
    · cases hb

theorem step_awaited (hs : Awaited s) (h : (runtimeSystem ext).step s a = some s') :
    Awaited s' := by
  cases step_cases h with
  | load artifact =>
    intro m c hwork
    rcases hs m c hwork with hawaits | ⟨j, call, reason, hj, hpc⟩
    · exact .inl hawaits
    · exact .inr ⟨j, call, reason, Slots.get_push_of_get hj _, hpc⟩
  | unloadWithin id drain =>
    intro m c hwork
    rcases hs m c hwork with ⟨k, u, hk, hu⟩ | hawaits
    · exact .inl ⟨k, u, Slots.get_push_of_get hk _, hu⟩
    · exact .inr hawaits
  | ofLoad hj hstep => exact hstep.awaited hs hj
  | ofUnload hk hstep => exact hstep.awaited hs hk
  | ofModel htaken hfree hact =>
    intro m c hwork
    rcases act_atWork hact hwork with hbefore | ⟨drain, rfl, -⟩
    · rw [act_frame hact]
      exact hs m c hbefore
    · rcases hfree with hb | hb | ⟨d, now, hb⟩ <;> cases hb

theorem reachable_awaited (h : Reachable (runtimeSystem ext) s) : Awaited s := by
  refine h.invariant ?_ fun _ _ _ _ hs _ hst => step_awaited hs hst
  rintro _ ⟨limits, rfl⟩ m c ⟨x, call, hm, -⟩
  simp [withLimits] at hm

/-- Where no unload future is dropped after it closed admission, and no drain budget reaches
past the last instant: an instance that is being unloaded has an unload call at work that
somebody waits for, and a call that is told so is told the truth. -/
theorem unloading_attended
    (hs : ReachableWhile (runtimeSystem ext) (OnModels LoadedModel.KeepsUnloads) s)
    {x : Model} (hm : s.models[m]? = some x) :
    (x.loaded.phase = .unloading → ∃ c, s.AtWork m c ∧ s.Awaits m c) ∧
    ∀ drain s', s.act ext m (.beginUnload drain) = some s' →
      s'.unloadPc m (s.nextCall m) = some (.returned (.ok .alreadyUnloading)) →
      x.loaded.phase = .unloading ∧ ∃ c, s.AtWork m c ∧ s.Awaits m c := by
  have hattended : x.loaded.phase = .unloading → ∃ c, s.AtWork m c ∧ s.Awaits m c := by
    intro hphase
    obtain ⟨c, call, hc, hex⟩ :=
      LoadedModel.reachableWhile_attended (model_reachableWhile hs hm) hphase
    have hwork : s.AtWork m c := ⟨x, call, hm, hc, hex⟩
    exact ⟨c, hwork, reachable_awaited hs.reachable m c hwork⟩
  refine ⟨hattended, fun drain s' hact htold => ?_⟩
  have hphase : x.loaded.phase = .unloading := by
    rw [begin_unloadPc hm hact, LoadedModel.State.begunCall] at htold
    cases hp : x.loaded.phase with
    | unloading => rfl
    | unloaded | unloadFailed =>
      rw [hp] at htold
      cases htold
    | serving =>
      rw [hp] at htold
      have hpc : (x.loaded.closingCall drain).pc = _ := Option.some.inj htold
      have hex := x.loaded.closingCall_executing drain
      unfold UnloadCall.executing at hex
      rw [hpc] at hex
      cases hex
  exact ⟨hphase, hattended hphase⟩

def untilClosed (drain : ℕ) : List RuntimeAction :=
  .load "a" :: untilLoaded 0 4 [7] ++
    [.unloadWithin sampleId drain, .stepUnload 0 .require, .stepUnload 0 .begin]

def opening (s : RuntimeState) (a : RuntimeAction) : Bool :=
  match s.taken a with
  | none | some (_, .beginUnload _) => true
  | _ => false

theorem opening_keepsUnloads (s : RuntimeState) (a : RuntimeAction) (h : opening s a = true) :
    OnModels LoadedModel.KeepsUnloads s a := by
  intro m b x htaken hm
  simp only [opening, htaken] at h
  split at h
  · rename_i he
    cases he
  · rename_i he
    cases he
    trivial
  · cases h

theorem unloading_attended_closed :
    ∃ s, (runtimeSystem sampleExternals).runWhile opening (.withLimits .default) (untilClosed 0) =
        some s ∧
      ∃ x c, s.models[0]? = some x ∧ x.loaded.phase = .unloading ∧ s.AtWork 0 c ∧
        s.Awaits 0 c := by
  obtain ⟨s, hrun, x, hm, hphase⟩ :
      ∃ s, (runtimeSystem sampleExternals).runWhile opening (.withLimits .default)
          (untilClosed 0) = some s ∧
        ∃ x, s.models[0]? = some x ∧ x.loaded.phase = .unloading := ⟨_, rfl, _, rfl, rfl⟩
  have hs : ReachableWhile (runtimeSystem sampleExternals) (OnModels LoadedModel.KeepsUnloads) s :=
    reachableWhile_of_run opening_keepsUnloads (.init ⟨_, rfl⟩) hrun
  obtain ⟨c, hwork, hawaits⟩ := (unloading_attended hs hm).1 hphase
  exact ⟨s, hrun, x, c, hm, hphase, hwork, hawaits⟩

def longestDrain : ℕ := (2 ^ 64 - 1) * 10 ^ 9 + 999999999

/-- The unload is dropped while the worker is being stopped. -/
def abandonedUnload : List RuntimeAction :=
  untilClosed 0 ++ [.onModel 0 (.stepUnload 0 (.setDeadline 0)),
    .onModel 0 (.stepUnload 0 (.decide 0)), .onModel 0 (.stepUnload 0 .callStop),
    .stepUnload 0 .drop]

/-- The unload asks for more time than there is. -/
def overlongUnload : List RuntimeAction :=
  untilClosed longestDrain ++ [.onModel 0 (.stepUnload 0 (.setDeadline 0)), .stepUnload 0 .outcome]

def undropped (s : RuntimeState) (a : RuntimeAction) : Bool :=
  match s.taken a with
  | some (_, .dropUnload _) => false
  | _ => true

theorem not_atWork {x : Model} (hm : s.models[m]? = some x)
    (hidle : x.loaded.unloads.all fun call => !call.executing) (c : ℕ) : ¬ s.AtWork m c := by
  rintro ⟨y, call, hy, hc, hex⟩
  obtain rfl : x = y := Option.some.inj (hm.symm.trans hy)
  have hcall := List.all_eq_true.mp hidle call (List.mem_of_getElem? hc)
  rw [hex] at hcall
  cases hcall

/-- An abandoned unload leaves the instance unloading for ever, and so does one whose drain
budget no instant can meet. -/
theorem unloading_unattended :
    (¬ ∀ (ext : Externals) (s : RuntimeState), Reachable (runtimeSystem ext) s →
      ∀ (m : ℕ) (x : Model), s.models[m]? = some x → x.loaded.phase = .unloading →
        ∃ c, s.AtWork m c) ∧
    ¬ ∀ (ext : Externals) (s : RuntimeState),
      ReachableWhile (runtimeSystem ext) (fun s a => undropped s a = true) s →
      ∀ (m : ℕ) (x : Model), s.models[m]? = some x → x.loaded.phase = .unloading →
        ∃ c, s.AtWork m c := by
  refine ⟨fun hclaim => ?_, fun hclaim => ?_⟩
  · obtain ⟨s, hrun, x, hm, hphase, hidle⟩ :
        ∃ s, (runtimeSystem sampleExternals).run (.withLimits .default) abandonedUnload = some s ∧
          ∃ x, s.models[0]? = some x ∧ x.loaded.phase = .unloading ∧
            (x.loaded.unloads.all fun call => !call.executing) = true :=
      ⟨_, rfl, _, rfl, rfl, rfl⟩
    have hs := reachable_of_withLimits hrun
    obtain ⟨c, hwork⟩ := hclaim sampleExternals s hs 0 x hm hphase
    exact not_atWork hm hidle c hwork
  · obtain ⟨s, hrun, x, hm, hphase, hidle⟩ :
        ∃ s, (runtimeSystem sampleExternals).runWhile undropped (.withLimits .default)
            overlongUnload = some s ∧
          ∃ x, s.models[0]? = some x ∧ x.loaded.phase = .unloading ∧
            (x.loaded.unloads.all fun call => !call.executing) = true :=
      ⟨_, rfl, _, rfl, rfl, rfl⟩
    have hs : ReachableWhile (runtimeSystem sampleExternals) (fun s a => undropped s a = true) s :=
      reachableWhile_of_run (fun _ _ h => h) (.init ⟨_, rfl⟩) hrun
    obtain ⟨c, hwork⟩ := hclaim sampleExternals s hs 0 x hm hphase
    exact not_atWork hm hidle c hwork

/-! ### Requests of resident instances -/

/-- Where no failed stop is recorded over a request that has not ended, and none is admitted
under the identifier of one: every request of a resident instance that has not ended is in
its table, so it can be cancelled, asked about and is counted, until the instance is
unloaded. -/
theorem requests_known
    (hs : ReachableWhile (runtimeSystem ext) (OnModels LoadedModel.KeepsRequests) s)
    {id : InstanceId} (hid : s.resolve id = some m) :
    ∃ x, s.models[m]? = some x ∧ x.loaded.id = id ∧ (x.loaded.phase ≠ .unloaded →
      (∀ (i : ℕ) (r : Request), x.loaded.admitted[i]? = some r → r.isTerminal = false →
        x.loaded.active.lookup r.handle.id = some i ∧
        (x.loaded.cancel r.handle.id).cancels = x.loaded.cancels ++ [.found i] ∧
        x.loaded.requestState r.handle.id = some r.handle.state) ∧
      (∀ (call call' : CancelCall) (after : LoadedModel.State) (err : CancelError),
        x.loaded.cancelNext call = some (after, call') → call' ≠ .returned (.error err)) ∧
      (x.loaded.admitted.countP fun r => !r.isTerminal) ≤ x.loaded.activeRequests) := by
  obtain ⟨entry, hl, rfl⟩ := Option.map_eq_some_iff.mp hid
  obtain ⟨x, hm, hx, -⟩ := (reachable_placed hs.reachable).entry id entry hl
  refine ⟨x, hm, hx, fun hphase => ?_⟩
  have hcomplete := LoadedModel.reachableWhile_complete (model_reachableWhile hs hm) hphase
  exact ⟨fun i r hr hopen =>
      ⟨hcomplete i r hr hopen, hcomplete.cancel hr hopen, hcomplete.requestState hr hopen⟩,
    fun call call' after err hnext => (LoadedModel.State.cancelNext_cases hnext).2 err, hcomplete.count⟩

def servedRequest : List RuntimeAction :=
  .load "a" :: untilLoaded 0 4 [7] ++
    [.onModel 0 (.embed LoadedModel.sampleText false), .onModel 0 (.request 0 (.whole .markRunning)),
      .onModel 0 (.request 0 (.whole .poll))]

def serving (s : RuntimeState) (a : RuntimeAction) : Bool :=
  match s.taken a with
  | none | some (_, .request _ _) => true
  | some (m, .embed _ _) => (s.models[m]?).all fun x => x.loaded.active.entries.isEmpty
  | _ => false

theorem serving_keepsRequests (s : RuntimeState) (a : RuntimeAction) (h : serving s a = true) :
    OnModels LoadedModel.KeepsRequests s a := by
  intro m b x htaken hm
  have hrecords : ∀ {b : LoadedModel.Action}, b.unloads = false →
      ¬ LoadedModel.RecordsFailure x.loaded b := by
    rintro b hb ⟨k, call, rfl, -⟩
    cases hb
  simp only [serving, htaken] at h
  split at h
  · rename_i he
    cases he
  · rename_i he
    cases he
    exact ⟨nofun, fun hfailure => (hrecords rfl hfailure).elim⟩
  · rename_i he
    cases he
    rw [hm, Option.all_some] at h
    refine ⟨fun _ _ i hi => ?_, fun hfailure => (hrecords rfl hfailure).elim⟩
    have hmem := mem_entries_iff.mpr hi
    rw [List.isEmpty_iff.mp h] at hmem
    cases hmem
  · cases h

theorem requests_known_served :
    ∃ s, (runtimeSystem sampleExternals).runWhile serving (.withLimits .default) servedRequest =
        some s ∧
      ∃ x r, s.resolve sampleId = some 0 ∧ s.models[0]? = some x ∧
        x.loaded.admitted[0]? = some r ∧ r.isTerminal = false ∧
        x.loaded.active.lookup r.handle.id = some 0 := by
  obtain ⟨s, hrun, y, r, hid, hm, hphase, hr, hopen⟩ :
      ∃ s, (runtimeSystem sampleExternals).runWhile serving (.withLimits .default)
          servedRequest = some s ∧
        ∃ y r, s.resolve sampleId = some 0 ∧ s.models[0]? = some y ∧
          y.loaded.phase = .serving ∧ y.loaded.admitted[0]? = some r ∧ r.isTerminal = false :=
    ⟨_, rfl, _, _, rfl, rfl, rfl, rfl, rfl⟩
  have hs : ReachableWhile (runtimeSystem sampleExternals) (OnModels LoadedModel.KeepsRequests) s :=
    reachableWhile_of_run serving_keepsRequests (.init ⟨_, rfl⟩) hrun
  obtain ⟨x, hx, -, hknown⟩ := requests_known hs hid
  obtain rfl : y = x := Option.some.inj (hm.symm.trans hx)
  have hkept : y.loaded.phase ≠ .unloaded := by
    rw [hphase]
    nofun
  exact ⟨s, hrun, y, r, hid, hm, hr, hopen, ((hknown hkept).1 0 r hr hopen).1⟩

/-- The request goes on while the unload gives up on it and cannot stop the worker. -/
def forgottenRequest : List RuntimeAction :=
  servedRequest ++ [.unloadWithin sampleId 0, .stepUnload 0 .require, .stepUnload 0 .begin] ++
    ([.tell, .setDeadline 0, .count, .decide 0, .callStop, .stopped (.error sampleFailure),
      .finish].map fun action => .onModel 0 (.stepUnload 0 action))

/-- A failed teardown clears the table of an instance that stays resident. -/
theorem requests_forgotten :
    ¬ ∀ (ext : Externals) (s : RuntimeState), Reachable (runtimeSystem ext) s →
      ∀ (id : InstanceId) (m : ℕ) (x : Model), s.resolve id = some m → s.models[m]? = some x →
        x.loaded.phase ≠ .unloaded →
        ∀ (i : ℕ) (r : Request), x.loaded.admitted[i]? = some r → r.isTerminal = false →
          x.loaded.active.lookup r.handle.id = some i := by
  intro hclaim
  obtain ⟨s, hrun, x, r, hid, hm, hphase, hr, hopen, hlost⟩ :
      ∃ s, (runtimeSystem sampleExternals).run (.withLimits .default) forgottenRequest = some s ∧
        ∃ x r, s.resolve sampleId = some 0 ∧ s.models[0]? = some x ∧
          x.loaded.phase = .unloadFailed ∧ x.loaded.admitted[0]? = some r ∧
          r.isTerminal = false ∧ x.loaded.active.lookup r.handle.id = none :=
    ⟨_, rfl, _, _, rfl, rfl, rfl, rfl, rfl, rfl⟩
  have hs := reachable_of_withLimits hrun
  have hkept : x.loaded.phase ≠ .unloaded := by
    rw [hphase]
    nofun
  have hfound := hclaim sampleExternals s hs sampleId 0 x hid hm hkept 0 r hr hopen
  rw [hlost] at hfound
  cases hfound

end MehoyRuntime.Runtime
