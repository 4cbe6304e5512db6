import MehoyRuntime.Lib.Slots
import MehoyRuntime.Runtime.Runtime

/-!
# Steps of the runtime

What one step of a load, of an unload and of a model is, said once: every property of the
runtime is derived from the cases below.
-/

namespace MehoyRuntime.Runtime
open MehoyRuntime.Core MehoyRuntime.Stream TransitionSystem KeyedTable
variable {ext : Externals} {s s' : RuntimeState}

namespace RuntimeState

theorem act_cases {m : ℕ} {b : LoadedModel.Action} (h : s.act ext m b = some s') :
    ∃ model loaded, s.models[m]? = some model ∧ LoadedModel.step ext model.loaded b = some loaded ∧
      s' = { s with models := s.models.set m { model with loaded := loaded } } := by
  unfold act at h
  obtain ⟨model, hm, h⟩ := Option.bind_eq_some_iff.mp h
  obtain ⟨loaded, hstep, rfl⟩ := Option.map_eq_some_iff.mp h
  exact ⟨model, loaded, hm, hstep, rfl⟩

theorem act_frame {m : ℕ} {b : LoadedModel.Action} (h : s.act ext m b = some s') :
    s' = { s with models := s'.models } := by
  obtain ⟨model, loaded, -, -, rfl⟩ := act_cases h
  rfl

theorem act_loads {m : ℕ} {b : LoadedModel.Action} (h : s.act ext m b = some s') :
    s'.loads = s.loads := by
  rw [act_frame h]

theorem act_unloads {m : ℕ} {b : LoadedModel.Action} (h : s.act ext m b = some s') :
    s'.unloads = s.unloads := by
  rw [act_frame h]

theorem publish_frame (s : RuntimeState) (m : ℕ) :
    s.publish m = { s with models := (s.publish m).models } := by
  unfold publish
  split <;> rfl

def afterRelease (s : RuntimeState) (call : LoadCall) : Ledger :=
  match call.reserved with
  | some claim => s.ledger.release claim.1
  | none => s.ledger

def endPc : Option RuntimeError → LoadPc
  | some err => .returned (.error err)
  | none => .dropped

end RuntimeState

open RuntimeState

inductive LoadStep (ext : Externals) (s : RuntimeState) (j : ℕ) (call : LoadCall) :
    LoadAction → RuntimeState → Prop
  | refused {footprint err} (hpc : call.pc = .reserving footprint)
      (hreserve : s.ledger.reserve s.limits footprint = .error err) :
      LoadStep ext s j call .reserve (s.setLoad j (call.goto (.returned (.error err))))
  | reserved {footprint id ledger} (hpc : call.pc = .reserving footprint)
      (hreserve : s.ledger.reserve s.limits footprint = .ok (id, ledger)) :
      LoadStep ext s j call .reserve
        ({ s with ledger := ledger, allocated := s.allocated + 1 }.setLoad j
          ((call.admitted ⟨id, footprint⟩).goto .preparing))
  | built {bytes} (hpc : call.pc = .committing) :
      LoadStep ext s j call (.commit (.ok bytes))
        ((s.addModel (call.build bytes)).setLoad j
          ({ call with built := some s.models.length }.goto (.fulfilling s.models.length)))
  | fulfilled {m model claim id ledger} (hpc : call.pc = .fulfilling m)
      (hm : s.models[m]? = some model) (hclaim : call.reserved = some claim)
      (hfulfil : s.ledger.fulfil claim.1 model.loaded.id m = (.ok id, ledger)) :
      LoadStep ext s j call .fulfil
        (({ s with ledger := ledger }.publish m).setLoad j
          (call.settled.goto (.returned (.ok id))))
  | rejected {m model claim reason ledger} (hpc : call.pc = .fulfilling m)
      (hm : s.models[m]? = some model) (hclaim : call.reserved = some claim)
      (hfulfil : s.ledger.fulfil claim.1 model.loaded.id m = (.error reason, ledger)) :
      LoadStep ext s j call .fulfil
        ({ s with ledger := ledger }.setLoad j (call.settled.goto (.rejected reason m)))
  | teardown {reason m s₁} (hpc : call.pc = .rejected reason m)
      (hact : s.act ext m (.beginUnload defaultDrain) = some s₁) :
      LoadStep ext s j call .beginTeardown
        (s₁.setLoad j (call.goto (.tearing reason m (s.nextCall m))))
  | torn {reason m k result} (hpc : call.pc = .tearing reason m k)
      (hover : (∃ answer, s.unloadPc m k = some (.returned answer)) ∨
        s.unloadPc m k = some .panicked)
      (hend : (∃ err, result = .returned (.error err)) ∨ result = .panicked) :
      LoadStep ext s j call .torn (s.setLoad j (call.goto result))
  | abandoned {reason m k s₁} (hpc : call.pc = .tearing reason m k)
      (hact : s.act ext m (.dropUnload k) = some s₁) :
      LoadStep ext s j call .drop (s₁.setLoad j (call.goto .dropped))
  | released {result} (hpc : call.pc = .releasing result) :
      LoadStep ext s j call .release
        ({ s with ledger := s.afterRelease call }.setLoad j (call.settled.goto (endPc result)))
  | inside {a call'} (hnext : call.next call.pc a = some call') :
      LoadStep ext s j call a (s.setLoad j call')

theorem stepLoad_cases {j : ℕ} {a : LoadAction} (h : s.stepLoad ext j a = some s') :
    ∃ call, s.loads[j]? = some call ∧ LoadStep ext s j call a s' := by
  unfold stepLoad at h
  obtain ⟨call, hj, hcall⟩ := Option.bind_eq_some_iff.mp h
  clear h
  refine ⟨call, hj, ?_⟩
  split at hcall
  case h_1 hpc =>
    split at hcall <;> cases hcall
    · rename_i herr
      exact .refused hpc herr
    · rename_i hok
      exact .reserved hpc hok
  case h_2 hpc =>
    cases hcall
    exact .built hpc
  case h_3 m hpc =>
    obtain ⟨model, hm, hmodel⟩ := Option.bind_eq_some_iff.mp hcall
    obtain ⟨claim, hclaim, hresult⟩ := Option.map_eq_some_iff.mp hmodel
    split at hresult <;> cases hresult
    · rename_i hok
      exact .fulfilled hpc hm hclaim hok
    · rename_i herr
      exact .rejected hpc hm hclaim herr
  case h_4 hpc =>
    obtain ⟨s₁, hact, rfl⟩ := Option.map_eq_some_iff.mp hcall
    exact .teardown hpc hact
  case h_5 hpc =>
    split at hcall <;> cases hcall
    · rename_i hover
      exact .torn hpc (.inl ⟨_, hover⟩) (.inl ⟨_, rfl⟩)
    · rename_i hover
      exact .torn hpc (.inl ⟨_, hover⟩) (.inl ⟨_, rfl⟩)
    · rename_i hover
      exact .torn hpc (.inr hover) (.inr rfl)
  case h_6 hpc =>
    obtain ⟨s₁, hact, rfl⟩ := Option.map_eq_some_iff.mp hcall
    exact .abandoned hpc hact
  case h_7 hpc =>
    cases hcall
    exact .released hpc
  case h_8 =>
    obtain ⟨call', hnext, rfl⟩ := Option.map_eq_some_iff.mp hcall
    exact .inside hnext

inductive UnloadingStep (ext : Externals) (s : RuntimeState) (j : ℕ) (call : Unloading) :
    UnloadingAction → RuntimeState → Prop
  | unknown {err} (hpc : call.pc = .requiring) (herr : s.require call.id = .error err) :
      UnloadingStep ext s j call .require (s.setUnload j { call with pc := .returned (.error err) })
  | required {m} (hpc : call.pc = .requiring) (hm : s.require call.id = .ok m) :
      UnloadingStep ext s j call .require (s.setUnload j { call with model := some m, pc := .resolved })
  | unpolled (hpc : call.pc = .requiring) :
      UnloadingStep ext s j call .drop (s.setUnload j { call with pc := .dropped })
  | begun {m s₁} (hmodel : call.model = some m) (hpc : call.pc = .resolved)
      (hact : s.act ext m (.beginUnload call.drain) = some s₁) :
      UnloadingStep ext s j call .begin (s₁.setUnload j { call with pc := .awaiting (s.nextCall m) })
  | finished {m k result} (hmodel : call.model = some m) (hpc : call.pc = .awaiting k)
      (hresult : s.unloadPc m k = some (.returned result)) :
      UnloadingStep ext s j call .outcome (s.setUnload j { call with pc := .checking result })
  | panicked {m k} (hmodel : call.model = some m) (hpc : call.pc = .awaiting k)
      (hresult : s.unloadPc m k = some .panicked) :
      UnloadingStep ext s j call .outcome (s.setUnload j { call with pc := .panicked })
  | dropped {m k s₁} (hmodel : call.model = some m) (hpc : call.pc = .awaiting k)
      (hact : s.act ext m (.dropUnload k) = some s₁) :
      UnloadingStep ext s j call .drop (s₁.setUnload j { call with pc := .dropped })
  | gone {m outcome model} (hmodel : call.model = some m) (hpc : call.pc = .checking (.ok outcome))
      (hm : s.models[m]? = some model) (hphase : model.loaded.phase = .unloaded) :
      UnloadingStep ext s j call .check (s.setUnload j { call with pc := .removing outcome })
  | kept {m outcome model} (hmodel : call.model = some m) (hpc : call.pc = .checking (.ok outcome))
      (hm : s.models[m]? = some model) (hphase : model.loaded.phase ≠ .unloaded) :
      UnloadingStep ext s j call .check (s.setUnload j { call with pc := .returned (.ok outcome) })
  | failed {m err} (hmodel : call.model = some m) (hpc : call.pc = .checking (.error err)) :
      UnloadingStep ext s j call .check
        (s.setUnload j { call with pc := .returned (.error (.instance_ err)) })
  | removed {m outcome} (hmodel : call.model = some m) (hpc : call.pc = .removing outcome) :
      UnloadingStep ext s j call .remove ({ s with ledger := s.ledger.remove call.id }.setUnload j
        { call with pc := .returned (.ok outcome) })

theorem unloadModel_cases {j m : ℕ} {call : Unloading} {a : UnloadingAction}
    (hmodel : call.model = some m) (h : s.unloadModel ext j call m call.pc a = some s') :
    UnloadingStep ext s j call a s' := by
  unfold unloadModel at h
  split at h
  case h_1 hpc =>
    obtain ⟨s₁, hact, rfl⟩ := Option.map_eq_some_iff.mp h
    exact .begun hmodel hpc hact
  case h_2 hpc =>
    split at h <;> cases h
    · rename_i hresult
      exact .finished hmodel hpc hresult
    · rename_i hresult
      exact .panicked hmodel hpc hresult
  case h_3 hpc =>
    obtain ⟨s₁, hact, rfl⟩ := Option.map_eq_some_iff.mp h
    exact .dropped hmodel hpc hact
  case h_4 hpc =>
    obtain ⟨model, hm, hphase⟩ := Option.map_eq_some_iff.mp h
    split at hphase <;> cases hphase
    · rename_i hgone
      exact .gone hmodel hpc hm hgone
    · rename_i hkept
      exact .kept hmodel hpc hm hkept
  case h_5 hpc =>
    cases h
    exact .failed hmodel hpc
  case h_6 hpc =>
    cases h
    exact .removed hmodel hpc
  case h_7 => cases h

theorem stepUnload_cases {j : ℕ} {a : UnloadingAction} (h : s.stepUnload ext j a = some s') :
    ∃ call, s.unloads[j]? = some call ∧ UnloadingStep ext s j call a s' := by
  unfold stepUnload at h
  obtain ⟨call, hj, hcall⟩ := Option.bind_eq_some_iff.mp h
  clear h
  refine ⟨call, hj, ?_⟩
  split at hcall
  case h_1 hpc =>
    split at hcall <;> cases hcall
    · rename_i herr
      exact .unknown hpc herr
    · rename_i hm
      exact .required hpc hm
  case h_2 hpc =>
    cases hcall
    exact .unpolled hpc
  case h_3 =>
    obtain ⟨m, hmodel, hstep⟩ := Option.bind_eq_some_iff.mp hcall
    exact unloadModel_cases hmodel hstep

/-! ### Models -/

def RuntimeState.taken (s : RuntimeState) : RuntimeAction → Option (ℕ × LoadedModel.Action)
  | .stepLoad j .beginTeardown =>
    (s.loads[j]?).bind fun call =>
      match call.pc with
      | .rejected _ m => some (m, .beginUnload defaultDrain)
      | _ => none
  | .stepLoad j .drop =>
    (s.loads[j]?).bind fun call =>
      match call.pc with
      | .tearing _ m k => some (m, .dropUnload k)
      | _ => none
  | .stepUnload j .begin =>
    (s.unloads[j]?).bind fun call => call.model.map fun m => (m, .beginUnload call.drain)
  | .stepUnload j .drop =>
    (s.unloads[j]?).bind fun call =>
      match call.pc with
      | .awaiting k => call.model.map fun m => (m, .dropUnload k)
      | _ => none
  | .onModel m action => some (m, action)
  | .recordGenerationStream m source request now =>
    (s.demonstrated source request).map fun d => (m, .recordGenerationStream d now)
  | _ => none

/-- Steps of models that no unload call begins or abandons. -/
def LoadedModel.Action.free (b : LoadedModel.Action) : Prop :=
  b.byCaller = true ∨ b.underway = true ∨ ∃ d now, b = .recordGenerationStream d now

inductive RuntimeStep (ext : Externals) (s : RuntimeState) : RuntimeAction → RuntimeState → Prop
  | load (artifact : String) :
      RuntimeStep ext s (.load artifact) { s with loads := s.loads ++ [.new artifact] }
  | unloadWithin (id : InstanceId) (drain : ℕ) :
      RuntimeStep ext s (.unloadWithin id drain)
        { s with unloads := s.unloads ++ [⟨id, drain, none, .requiring⟩] }
  | ofLoad {j call b s'} (hj : s.loads[j]? = some call) (h : LoadStep ext s j call b s') :
      RuntimeStep ext s (.stepLoad j b) s'
  | ofUnload {j call b s'} (hj : s.unloads[j]? = some call)
      (h : UnloadingStep ext s j call b s') : RuntimeStep ext s (.stepUnload j b) s'
  | ofModel {a m b s'} (htaken : s.taken a = some (m, b)) (hfree : b.free)
      (hact : s.act ext m b = some s') : RuntimeStep ext s a s'

theorem step_cases {a : RuntimeAction} (h : step ext s a = some s') : RuntimeStep ext s a s' := by
  cases a with
  | load artifact =>
    cases h
    exact .load artifact
  | unloadWithin id drain =>
    cases h
    exact .unloadWithin id drain
  | stepLoad j b =>
    obtain ⟨call, hj, hstep⟩ := stepLoad_cases h
    exact .ofLoad hj hstep
  | stepUnload j b =>
    obtain ⟨call, hj, hstep⟩ := stepUnload_cases h
    exact .ofUnload hj hstep
  | onModel m b =>
    obtain ⟨model, hm, hmodel⟩ := Option.bind_eq_some_iff.mp h
    split at hmodel
    · rename_i hallowed
      refine .ofModel rfl ?_ hmodel
      rcases Bool.or_eq_true_iff.mp hallowed with hunderway | hcaller
      · exact .inr (.inl hunderway)
      · exact .inl (Bool.and_eq_true_iff.mp hcaller).1
    · cases hmodel
  | recordGenerationStream m source request now =>
    obtain ⟨model, hm, hmodel⟩ := Option.bind_eq_some_iff.mp h
    split at hmodel
    · obtain ⟨d, hd, hact⟩ := Option.bind_eq_some_iff.mp hmodel
      refine .ofModel ?_ (.inr (.inr ⟨d, now, rfl⟩)) hact
      simp only [taken, hd, Option.map_some]
    · cases hmodel

/-- What a step can do to the models: nothing, one more, one step of one of them, or one
of them has its entry and can be resolved from now on. -/
inductive ModelsStep (ext : Externals) (s : RuntimeState) (a : RuntimeAction)
    (s' : RuntimeState) : Prop
  | same (hmodels : s'.models = s.models)
  | built {loaded} (hnew : (LoadedModel.system ext).init loaded)
      (hmodels : s'.models = s.models ++ [⟨loaded, false⟩])
  | acted {m b model loaded} (htaken : s.taken a = some (m, b)) (hm : s.models[m]? = some model)
      (hstep : LoadedModel.step ext model.loaded b = some loaded)
      (hmodels : s'.models = s.models.set m { model with loaded := loaded })
  | published {m model} (footprint : ResourceFootprint) (hm : s.models[m]? = some model)
      (hmodels : s'.models = s.models.set m { model with published := true })
      (hentry : s'.ledger.resident.lookup model.loaded.id = some ⟨m, footprint⟩)

theorem RuntimeState.publish_models {m : ℕ} {model : Model} (hm : s.models[m]? = some model) :
    (s.publish m).models = s.models.set m { model with published := true } := by
  simp only [publish, hm]

theorem RuntimeState.act_models {a : RuntimeAction} {m : ℕ} {b : LoadedModel.Action}
    (htaken : s.taken a = some (m, b)) {s₁ : RuntimeState} (h : s.act ext m b = some s₁)
    (hmodels : s'.models = s₁.models) : ModelsStep ext s a s' := by
  obtain ⟨model, loaded, hm, hstep, rfl⟩ := act_cases h
  exact .acted htaken hm hstep hmodels

theorem LoadStep.models {j : ℕ} {call : LoadCall} {a : LoadAction} (hj : s.loads[j]? = some call)
    (h : LoadStep ext s j call a s') : ModelsStep ext s (.stepLoad j a) s' := by
  cases h with
  | refused | reserved | rejected | torn | released | inside => exact .same rfl
  | built hpc => exact .built ⟨_, _, _, rfl⟩ rfl
  | @fulfilled m model claim id ledger hpc hm hclaim hfulfil =>
    rcases s.ledger.fulfil_cases claim.1 model.loaded.id m with
      ⟨footprint, hpending, hvacant, he⟩ | ⟨reason, he⟩
    · rw [hfulfil] at he
      cases he
      refine .published footprint hm (publish_models (s := { s with ledger := _ }) hm) ?_
      rw [publish_frame]
      exact AList.lookup_insert _
    · rw [hfulfil] at he
      cases he
  | @teardown reason m s₁ hpc hact =>
    have htaken : s.taken (.stepLoad j .beginTeardown) = some (m, .beginUnload defaultDrain) := by
      simp only [taken, hj, Option.bind_some, hpc]
    exact act_models htaken hact rfl
  | @abandoned reason m k s₁ hpc hact =>
    have htaken : s.taken (.stepLoad j .drop) = some (m, .dropUnload k) := by
      simp only [taken, hj, Option.bind_some, hpc]
    exact act_models htaken hact rfl

theorem UnloadingStep.models {j : ℕ} {call : Unloading} {a : UnloadingAction}
    (hj : s.unloads[j]? = some call) (h : UnloadingStep ext s j call a s') :
    ModelsStep ext s (.stepUnload j a) s' := by
  cases h with
  | unknown | required | unpolled | finished | panicked | gone | kept | failed | removed =>
    exact .same rfl
  | @begun m s₁ hmodel hpc hact =>
    have htaken : s.taken (.stepUnload j .begin) = some (m, .beginUnload call.drain) := by
      simp only [taken, hj, Option.bind_some, hmodel, Option.map_some]
    exact act_models htaken hact rfl
  | @dropped m k s₁ hmodel hpc hact =>
    have htaken : s.taken (.stepUnload j .drop) = some (m, .dropUnload k) := by
      simp only [taken, hj, Option.bind_some, hpc, hmodel, Option.map_some]
    exact act_models htaken hact rfl

theorem step_models {a : RuntimeAction} (h : step ext s a = some s') : ModelsStep ext s a s' := by
  cases step_cases h with
  | load | unloadWithin => exact .same rfl
  | ofLoad hj hstep => exact hstep.models hj
  | ofUnload hj hstep => exact hstep.models hj
  | ofModel htaken hfree hact => exact act_models htaken hact rfl

/-- A condition on the steps of an instance, for every step of every model. -/
def OnModels (ok : LoadedModel.State → LoadedModel.Action → Prop) (s : RuntimeState)
    (a : RuntimeAction) : Prop :=
  ∀ m b model, s.taken a = some (m, b) → s.models[m]? = some model → ok model.loaded b

/-- Every model of the runtime is an instance in a state of its own runs. -/
theorem model_reachableWhile {ok : LoadedModel.State → LoadedModel.Action → Prop} {m : ℕ}
    {model : Model} (hs : ReachableWhile (runtimeSystem ext) (OnModels ok) s)
    (hm : s.models[m]? = some model) :
    ReachableWhile (LoadedModel.system ext) ok model.loaded := by
  refine ReachableWhile.component
    (fun s m x => ∃ model : Model, s.models[m]? = some model ∧ model.loaded = x)
    ?_ ?_ hs ⟨model, hm, rfl⟩
  · rintro s i x ⟨limits, rfl⟩ ⟨y, hy, -⟩
    simp [withLimits] at hy
  · rintro s s' a i _ hreach hok hst ⟨y, hy, rfl⟩
    cases step_models hst with
    | same hmodels =>
      rw [hmodels] at hy
      exact .inl ⟨_, ⟨y, hy, rfl⟩, .inl rfl⟩
    | built hnew hmodels =>
      rw [hmodels] at hy
      rcases Slots.get_push_cases hy with ⟨-, rfl⟩ | hy
      · exact .inr hnew
      · exact .inl ⟨_, ⟨y, hy, rfl⟩, .inl rfl⟩
    | @acted n b x loaded htaken hx hstep hmodels =>
      rw [hmodels] at hy
      rcases Slots.get_set_cases hy with ⟨rfl, rfl⟩ | ⟨-, hy⟩
      · exact .inl ⟨_, ⟨x, hx, rfl⟩, .inr ⟨b, hok _ b x htaken hx, hstep⟩⟩
      · exact .inl ⟨_, ⟨y, hy, rfl⟩, .inl rfl⟩
    | published footprint hx hmodels hentry =>
      rw [hmodels] at hy
      rcases Slots.get_set_cases hy with ⟨rfl, rfl⟩ | ⟨-, hy⟩
      · exact .inl ⟨_, ⟨_, hx, rfl⟩, .inl rfl⟩
      · exact .inl ⟨_, ⟨y, hy, rfl⟩, .inl rfl⟩

theorem model_reachable {m : ℕ} {model : Model} (hs : Reachable (runtimeSystem ext) s)
    (hm : s.models[m]? = some model) : Reachable (LoadedModel.system ext) model.loaded :=
  model_reachableWhile (hs.mono fun _ _ _ _ _ _ _ _ => trivial) hm

end MehoyRuntime.Runtime
