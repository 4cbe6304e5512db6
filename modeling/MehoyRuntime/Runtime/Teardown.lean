import MehoyRuntime.Lib.Slots
import MehoyRuntime.Runtime.LoadedModel

/-!
# Tearing an instance down

The phase of an instance, its worker and its unload calls, over all runs. Only the
actions of unload calls touch them; at most one call is ever at work, and where it
stands says how often the worker was stopped and what came of it.
-/

namespace MehoyRuntime.Runtime.LoadedModel
open MehoyRuntime.Core MehoyRuntime.Stream TransitionSystem KeyedTable
variable {ext : Externals} {s s' : State}

/-- The part of an instance that at most unload calls change. -/
structure Control where
  id : InstanceId
  phase : LifecyclePhase
  worker : Bool
  unloads : List UnloadCall
  stopCalls : ℕ
  stopResults : List (Except BackendError Unit)

def State.control (s : State) : Control :=
  ⟨s.id, s.phase, s.lifecycle.worker, s.unloads, s.stopCalls, s.stopResults⟩

theorem State.onHandle_control (s : State) (i : ℕ) (f : RequestHandle → RequestHandle) :
    (s.onHandle i f).control = s.control := by
  unfold State.onHandle
  split <;> rfl

theorem State.begin_control (s : State) (valid : Except LoadError Unit)
    (request : RequestHandle → Request) : (s.begin valid request).control = s.control := by
  unfold State.begin State.admitRequest
  split
  · rfl
  · split
    · rfl
    · rename_i hadmit
      split at hadmit
      · cases hadmit
      · split at hadmit <;> cases hadmit
        rfl

theorem State.cancelNext_cases {call call' : CancelCall} {s₁ : State}
    (h : s.cancelNext call = some (s₁, call')) :
    (s₁ = s ∨ ∃ i, s₁ = s.tell i .user) ∧ ∀ err, call' ≠ .returned (.error err) := by
  unfold State.cancelNext at h
  split at h
  · obtain ⟨r, -, hr⟩ := Option.map_eq_some_iff.mp h
    split at hr <;> cases hr <;> exact ⟨.inl rfl, nofun⟩
  · obtain ⟨r, -, hr⟩ := Option.map_eq_some_iff.mp h
    cases hr
    refine ⟨.inr ⟨_, rfl⟩, ?_⟩
    split <;> nofun
  · obtain ⟨r, -, hr⟩ := Option.map_eq_some_iff.mp h
    split at hr <;> cases hr <;> exact ⟨.inl rfl, nofun⟩
  · obtain ⟨r, -, hr⟩ := Option.map_eq_some_iff.mp h
    cases hr
    exact ⟨.inl rfl, nofun⟩
  · cases h

theorem State.stepCancel_control {k : ℕ} (h : s.stepCancel k = some s') :
    s'.control = s.control := by
  unfold State.stepCancel at h
  obtain ⟨call, -, h⟩ := Option.bind_eq_some_iff.mp h
  obtain ⟨⟨s₁, call'⟩, hnext, rfl⟩ := Option.map_eq_some_iff.mp h
  change s₁.control = s.control
  rcases (State.cancelNext_cases hnext).1 with rfl | ⟨i, rfl⟩
  · rfl
  · exact s.onHandle_control i _

def Action.unloads : Action → Bool
  | .beginUnload _ | .stepUnload _ _ | .dropUnload _ => true
  | _ => false

theorem step_control {a : Action} (ha : a.unloads = false) (h : step ext s a = some s') :
    s'.control = s.control := by
  cases a with
  | embed request verify =>
    cases h
    exact s.begin_control _ _
  | generateText request verify =>
    cases h
    exact s.begin_control _ _
  | generateStream request body =>
    cases h
    exact s.begin_control _ _
  | request i action =>
    obtain ⟨r, -, h⟩ := Option.bind_eq_some_iff.mp h
    obtain ⟨r', -, rfl⟩ := Option.map_eq_some_iff.mp h
    rfl
  | recordVerified i now =>
    simp only [step, State.recordVerified] at h
    split at h
    · split at h <;> cases h
      rfl
    · cases h
  | recordGenerationStream demonstrated now =>
    cases h
    unfold State.recordGenerationStream
    split <;> rfl
  | cancel requestId =>
    cases h
    unfold State.cancel
    dsimp only
    split <;> rfl
  | stepCancel k => exact State.stepCancel_control h
  | activeRequests =>
    cases h
    rfl
  | beginUnload drain => cases ha
  | stepUnload k action => cases ha
  | dropUnload k => cases ha

/-- The steps of an unload call, by where it stands and what it finds. -/
inductive UnloadStep (s : State) (call : UnloadCall) : UnloadAction → State → UnloadPc → Prop
  | missing (hpc : call.pc = .missing) :
      UnloadStep s call .finish (s.finish .unloadFailed) (.returned (.ok .alreadyFailed))
  | told {i rest} (hpc : call.pc = .cancelling (i :: rest)) :
      UnloadStep s call .tell (s.tell i .instanceUnloading) (.cancelling rest)
  | timed {now deadline} (hpc : call.pc = .cancelling [])
      (hdeadline : instantAdd now call.drain = some deadline) :
      UnloadStep s call (.setDeadline now) s (.counting deadline call.outstanding 0)
  | overlong {now} (hpc : call.pc = .cancelling []) (hnone : instantAdd now call.drain = none) :
      UnloadStep s call (.setDeadline now) s .panicked
  | counted {deadline i rest unsettled} (hpc : call.pc = .counting deadline (i :: rest) unsettled) :
      UnloadStep s call .count s
        (.counting deadline rest (if s.terminalAt i then unsettled else unsettled + 1))
  | drained {deadline unsettled now} (hpc : call.pc = .counting deadline [] unsettled)
      (hover : unsettled = 0 ∨ deadline ≤ now) :
      UnloadStep s call (.decide now) s (.drained unsettled)
  | slept {deadline unsettled now} (hpc : call.pc = .counting deadline [] unsettled)
      (hopen : unsettled ≠ 0) (hearly : now < deadline) :
      UnloadStep s call (.decide now) s (.sleeping deadline)
  | woken {deadline} (hpc : call.pc = .sleeping deadline) :
      UnloadStep s call .wake s (.counting deadline call.outstanding 0)
  | stopping {unsettled} (hpc : call.pc = .drained unsettled) :
      UnloadStep s call .callStop { s with stopCalls := s.stopCalls + 1 } (.stopping unsettled)
  | stopped {result unsettled} (hpc : call.pc = .stopping unsettled) :
      UnloadStep s call (.stopped result) { s with stopResults := s.stopResults ++ [result] }
        (.finishing result unsettled)
  | finished {result unsettled} (hpc : call.pc = .finishing result unsettled) :
      UnloadStep s call .finish (s.finish (State.phaseFor result))
        (.returned (State.unloadResult call result unsettled))

theorem State.unloadNext_cases {call : UnloadCall} {a : UnloadAction} {s₁ : State} {pc : UnloadPc}
    (h : s.unloadNext call call.pc a = some (s₁, pc)) : UnloadStep s call a s₁ pc := by
  unfold State.unloadNext at h
  split at h
  case h_1 hpc =>
    cases h
    exact .missing hpc
  case h_2 hpc =>
    cases h
    exact .told hpc
  case h_3 hpc =>
    split at h <;> cases h
    · rename_i hdeadline
      exact .timed hpc hdeadline
    · rename_i hnone
      exact .overlong hpc hnone
  case h_4 hpc =>
    cases h
    exact .counted hpc
  case h_5 hpc =>
    split at h
    · rename_i hzero
      cases h
      subst hzero
      exact .drained hpc (.inl rfl)
    · rename_i hopen
      split at h <;> cases h
      · rename_i hover
        exact .drained hpc (.inr hover)
      · rename_i hearly
        exact .slept hpc hopen (Nat.not_le.mp hearly)
  case h_6 hpc =>
    cases h
    exact .woken hpc
  case h_7 hpc =>
    cases h
    exact .stopping hpc
  case h_8 hpc =>
    cases h
    exact .stopped hpc
  case h_9 hpc =>
    cases h
    exact .finished hpc
  case h_10 => cases h

theorem UnloadStep.executing {call : UnloadCall} {a : UnloadAction} {s₁ : State} {pc : UnloadPc}
    (h : UnloadStep s call a s₁ pc) : call.executing = true := by
  unfold UnloadCall.executing
  cases h <;> simp only [*]

theorem UnloadStep.frame {call : UnloadCall} {a : UnloadAction} {s₁ : State} {pc : UnloadPc}
    (h : UnloadStep s call a s₁ pc) : s₁.unloads = s.unloads ∧ s₁.id = s.id := by
  cases h with
  | told hpc =>
    have hcontrol := s.onHandle_control
    exact ⟨congrArg Control.unloads (hcontrol _ _), congrArg Control.id (hcontrol _ _)⟩
  | _ => exact ⟨rfl, rfl⟩

theorem State.beginUnload_serving (hp : s.phase = .serving) (drain : ℕ) :
    s.beginUnload drain =
      { s with lifecycle := ⟨.unloading, s.active, false⟩ }.pushUnload (s.closingCall drain) := by
  simp only [State.beginUnload, hp]

theorem State.beginUnload_ended (hp : s.phase ≠ .serving) (drain : ℕ) :
    ∃ outcome, s.beginUnload drain = s.pushUnload (endedCall drain outcome) := by
  unfold State.beginUnload
  split
  · exact ⟨_, rfl⟩
  · exact ⟨_, rfl⟩
  · exact ⟨_, rfl⟩
  · rename_i hserving
    exact absurd hserving hp

inductive CallStep (s : State) : Action → State → Prop
  | kept {a s'} (hu : a.unloads = false) (hcontrol : s'.control = s.control) : CallStep s a s'
  | closed {drain} (hserving : s.phase = .serving) :
      CallStep s (.beginUnload drain)
        ({ s with lifecycle := ⟨.unloading, s.active, false⟩ }.pushUnload (s.closingCall drain))
  | answered {drain outcome} (hp : s.phase ≠ .serving) :
      CallStep s (.beginUnload drain) (s.pushUnload (State.endedCall drain outcome))
  | moved {k b call s₁ pc} (hk : s.unloads[k]? = some call) (hnext : UnloadStep s call b s₁ pc) :
      CallStep s (.stepUnload k b) (s₁.setUnload k { call with pc := pc })
  | dropped {k call} (hk : s.unloads[k]? = some call) (hex : call.executing = true) :
      CallStep s (.dropUnload k) (s.setUnload k { call with pc := .dropped })

theorem step_cases {a : Action} (h : step ext s a = some s') : CallStep s a s' := by
  cases hu : a.unloads with
  | false => exact .kept hu (step_control hu h)
  | true =>
    cases a with
    | beginUnload drain =>
      cases h
      by_cases hserving : s.phase = .serving
      · rw [State.beginUnload_serving hserving]
        exact .closed hserving
      · obtain ⟨outcome, he⟩ := State.beginUnload_ended hserving drain
        rw [he]
        exact .answered hserving
    | stepUnload k b =>
      obtain ⟨call, hk, h⟩ := Option.bind_eq_some_iff.mp h
      obtain ⟨⟨s₁, pc⟩, hnext, rfl⟩ := Option.map_eq_some_iff.mp h
      exact .moved hk (State.unloadNext_cases hnext)
    | dropUnload k =>
      obtain ⟨call, hk, h⟩ := Option.bind_eq_some_iff.mp h
      split at h
      case h_1 hpc | h_2 hpc =>
        cases h
        refine .dropped hk ?_
        simp only [UnloadCall.executing, hpc]
      case h_3 => cases h
    | _ => cases hu

def State.begunCall (s : State) (drain : ℕ) : UnloadCall :=
  match s.phase with
  | .unloading => endedCall drain .alreadyUnloading
  | .unloaded => endedCall drain .alreadyUnloaded
  | .unloadFailed => endedCall drain .alreadyFailed
  | .serving => s.closingCall drain

theorem State.beginUnload_unloads (s : State) (drain : ℕ) :
    (s.beginUnload drain).unloads = s.unloads ++ [s.begunCall drain] := by
  unfold State.beginUnload State.begunCall
  cases s.phase <;> rfl

theorem State.closingCall_executing (s : State) (drain : ℕ) :
    (s.closingCall drain).executing = true := by
  unfold State.closingCall UnloadCall.executing
  cases s.lifecycle.worker <;> rfl

/-! ### The invariant -/

/-- How often the worker was stopped, and with what result, by where the call stands. -/
def Stage (calls : ℕ) (results : List (Except BackendError Unit)) : UnloadPc → Prop
  | .missing => False
  | .cancelling _ | .counting _ _ _ | .sleeping _ | .drained _ => calls = 0 ∧ results = []
  | .stopping _ => calls = 1 ∧ results = []
  | .finishing result _ => calls = 1 ∧ results = [result]
  | .returned _ | .dropped | .panicked => True

structure Teardown (c : Control) : Prop where
  serving : c.phase = .serving → c.worker = true ∧ c.stopCalls = 0 ∧ c.stopResults = []
  once : c.stopCalls ≤ 1
  alone : ∀ (k k' : ℕ) (call call' : UnloadCall), c.unloads[k]? = some call →
    c.unloads[k']? = some call' → call.executing = true → call'.executing = true → k = k'
  stage : ∀ (k : ℕ) (call : UnloadCall), c.unloads[k]? = some call → call.executing = true →
    c.phase = .unloading ∧ Stage c.stopCalls c.stopResults call.pc
  unloaded : c.phase = .unloaded → c.stopResults = [.ok ()]
  failed : c.phase = .unloadFailed → ∃ err, c.stopResults = [.error err]

theorem teardown_new (id : InstanceId) (identity : Option BackendIdentity)
    (capabilities : ModelCapabilities) : Teardown (new id identity capabilities).control where
  serving _ := ⟨rfl, rfl, rfl⟩
  once := Nat.zero_le _
  alone _ _ _ _ h := by simp [State.control, new] at h
  stage _ _ h := by simp [State.control, new] at h
  unloaded h := by cases h
  failed h := by cases h

theorem Teardown.push {c : Control} (ht : Teardown c) {call : UnloadCall}
    (hcall : call.executing = false) : Teardown { c with unloads := c.unloads ++ [call] } where
  serving := ht.serving
  once := ht.once
  alone k k' x y hx hy ex ey := by
    rcases Slots.get_push_cases hx with ⟨-, rfl⟩ | hx
    · rw [hcall] at ex
      cases ex
    · rcases Slots.get_push_cases hy with ⟨-, rfl⟩ | hy
      · rw [hcall] at ey
        cases ey
      · exact ht.alone k k' x y hx hy ex ey
  stage k x hx ex := by
    rcases Slots.get_push_cases hx with ⟨-, rfl⟩ | hx
    · rw [hcall] at ex
      cases ex
    · exact ht.stage k x hx ex
  unloaded := ht.unloaded
  failed := ht.failed

theorem Teardown.close {c : Control} (ht : Teardown c) (hp : c.phase = .serving)
    {drain : ℕ} {outstanding rest : List ℕ} :
    Teardown { c with
      phase := .unloading
      worker := false
      unloads := c.unloads ++ [⟨drain, outstanding, .cancelling rest⟩] } := by
  have hidle : ∀ (k : ℕ) (call : UnloadCall), c.unloads[k]? = some call →
      call.executing = true → False := by
    intro k call hk hex
    have hphase := (ht.stage k call hk hex).1
    rw [hp] at hphase
    cases hphase
  obtain ⟨-, hcalls, hresults⟩ := ht.serving hp
  exact
    { serving := fun h => by cases h
      once := ht.once
      alone := fun k k' x y hx hy ex ey => by
        rcases Slots.get_push_cases hx with ⟨rfl, -⟩ | hx
        · rcases Slots.get_push_cases hy with ⟨rfl, -⟩ | hy
          · rfl
          · exact (hidle k' y hy ey).elim
        · exact (hidle k x hx ex).elim
      stage := fun k x hx ex => by
        rcases Slots.get_push_cases hx with ⟨-, rfl⟩ | hx
        · exact ⟨rfl, hcalls, hresults⟩
        · exact (hidle k x hx ex).elim
      unloaded := fun h => by cases h
      failed := fun h => by cases h }

theorem Teardown.advance {c : Control} (ht : Teardown c) {k : ℕ} {call : UnloadCall}
    (hk : c.unloads[k]? = some call) (hex : call.executing = true) {pc : UnloadPc}
    {calls : ℕ} {results : List (Except BackendError Unit)} (phase : LifecyclePhase)
    (hserving : phase ≠ .serving)
    (honce : calls ≤ 1) (hstage : ({ call with pc := pc } : UnloadCall).executing = true →
      phase = .unloading ∧ Stage calls results pc)
    (hunloaded : phase = .unloaded → results = [.ok ()])
    (hfailed : phase = .unloadFailed → ∃ err, results = [.error err]) :
    Teardown { c with
      phase := phase
      unloads := c.unloads.set k { call with pc := pc }
      stopCalls := calls
      stopResults := results } := by
  -- At most one call is at work, so every other one has come to its end.
  have hother : ∀ (j : ℕ) (x : UnloadCall), j ≠ k → c.unloads[j]? = some x →
      x.executing = true → False := fun j x hne hj ex => hne (ht.alone j k x call hj hk ex hex)
  exact
    { serving := fun h => absurd h hserving
      once := honce
      alone := fun j j' x y hx hy ex ey => by
        rcases Slots.get_set_cases hx with ⟨rfl, -⟩ | ⟨hne, hx⟩
        · rcases Slots.get_set_cases hy with ⟨rfl, -⟩ | ⟨hne, hy⟩
          · rfl
          · exact (hother j' y hne hy ey).elim
        · exact (hother j x hne hx ex).elim
      stage := fun j x hx ex => by
        rcases Slots.get_set_cases hx with ⟨-, rfl⟩ | ⟨hne, hx⟩
        · exact hstage ex
        · exact (hother j x hne hx ex).elim
      unloaded := hunloaded
      failed := hfailed }

theorem UnloadStep.teardown {call : UnloadCall} {a : UnloadAction} {s₁ : State} {pc : UnloadPc}
    (h : UnloadStep s call a s₁ pc) (ht : Teardown s.control) {k : ℕ}
    (hk : s.unloads[k]? = some call) :
    Teardown { s₁.control with unloads := s₁.unloads.set k { call with pc := pc } } := by
  have hex := h.executing
  obtain ⟨hphase, hstage⟩ := ht.stage k call hk hex
  have hp : s.phase = .unloading := hphase
  have hne : s.phase ≠ .serving ∧ s.phase ≠ .unloaded ∧ s.phase ≠ .unloadFailed := by
    rw [hp]
    exact ⟨nofun, nofun, nofun⟩
  -- A step that leaves the phase and the counts alone.
  have hstay : ∀ {pc' : UnloadPc}, Stage s.stopCalls s.stopResults pc' →
      Teardown { s.control with unloads := s.unloads.set k { call with pc := pc' } } :=
    fun hst => ht.advance hk hex _ hne.1 ht.once (fun _ => ⟨hphase, hst⟩)
      (fun hu => absurd hu hne.2.1) fun hf => absurd hf hne.2.2
  cases h with
  | missing hpc =>
    rw [hpc] at hstage
    cases hstage
  | @told i rest hpc =>
    rw [hpc] at hstage
    have hcontrol : (s.tell i .instanceUnloading).control = s.control := s.onHandle_control i _
    have hun : (s.tell i .instanceUnloading).unloads = s.unloads := congrArg Control.unloads hcontrol
    rw [hcontrol, hun]
    exact hstay hstage
  | timed hpc | counted hpc | drained hpc | slept hpc | woken hpc =>
    rw [hpc] at hstage
    exact hstay hstage
  | overlong hpc hnone => exact hstay trivial
  | stopping hpc =>
    rw [hpc] at hstage
    obtain ⟨hcalls, hresults⟩ : s.stopCalls = 0 ∧ s.stopResults = [] := hstage
    have hone : s.stopCalls + 1 = 1 := by rw [hcalls]
    exact ht.advance hk hex _ hne.1 (Nat.le_of_eq hone) (fun _ => ⟨hphase, hone, hresults⟩)
      (fun hu => absurd hu hne.2.1) fun hf => absurd hf hne.2.2
  | @stopped result unsettled hpc =>
    rw [hpc] at hstage
    obtain ⟨hcalls, hresults⟩ : s.stopCalls = 1 ∧ s.stopResults = [] := hstage
    have happend : s.stopResults ++ [result] = [result] := by rw [hresults, List.nil_append]
    exact ht.advance hk hex _ hne.1 ht.once (fun _ => ⟨hphase, hcalls, happend⟩)
      (fun hu => absurd hu hne.2.1) fun hf => absurd hf hne.2.2
  | @finished result unsettled hpc =>
    rw [hpc] at hstage
    have hresults : s.stopResults = [result] := hstage.2
    refine ht.advance hk hex (State.phaseFor result) ?_ ht.once (fun he => by cases he) ?_ ?_
    · cases result <;> nofun
    · intro hu
      cases result with
      | ok => exact hresults
      | error => cases hu
    · intro hf
      cases result with
      | ok => cases hf
      | error err => exact ⟨err, hresults⟩

theorem step_teardown {a : Action} (ht : Teardown s.control) (h : step ext s a = some s') :
    Teardown s'.control := by
  cases step_cases h with
  | kept hu hcontrol => rwa [hcontrol]
  | closed hserving =>
    have hw : s.lifecycle.worker = true := (ht.serving hserving).1
    rw [State.closingCall, hw]
    exact ht.close hserving
  | answered hp => exact ht.push rfl
  | moved hk hnext => exact hnext.teardown ht hk
  | @dropped k call hk hex =>
    have hp : s.phase = .unloading := (ht.stage k call hk hex).1
    refine ht.advance hk hex s.phase ?_ ht.once (fun he => by cases he) ?_ ?_
    all_goals rw [hp]
    all_goals nofun

/-- A step of an unload call leaves the call at work in the same phase, or records the end
of the teardown, or panics where the deadline does not exist. -/
theorem UnloadStep.phase {call : UnloadCall} {a : UnloadAction} {s₁ : State} {pc : UnloadPc}
    (h : UnloadStep s call a s₁ pc) :
    (s₁.phase = s.phase ∧ ({ call with pc := pc } : UnloadCall).executing = true) ∨
    s₁.phase = .unloaded ∨ s₁.phase = .unloadFailed ∨
    (s₁.phase = s.phase ∧ ∃ now, a = .setDeadline now ∧ instantAdd now call.drain = none) := by
  cases h with
  | missing hpc => exact .inr (.inr (.inl rfl))
  | told hpc => exact .inl ⟨congrArg Control.phase (s.onHandle_control _ _), rfl⟩
  | @overlong now hpc hnone => exact .inr (.inr (.inr ⟨rfl, now, rfl, hnone⟩))
  | @finished result unsettled hpc =>
    cases result with
    | ok => exact .inr (.inl rfl)
    | error => exact .inr (.inr (.inl rfl))
  | _ => exact .inl ⟨rfl, rfl⟩

def Succeeds : LifecyclePhase → LifecyclePhase → Prop
  | .serving, .unloading | .unloading, .unloaded | .unloading, .unloadFailed => True
  | phase, phase' => phase = phase'

theorem Succeeds.refl (p : LifecyclePhase) : Succeeds p p := by
  cases p <;> rfl

theorem Succeeds.notEnded {p p' : LifecyclePhase} (h : Succeeds p p')
    (hp : p' = .serving ∨ p' = .unloading) : p = .serving ∨ p = .unloading := by
  cases p with
  | serving => exact .inl rfl
  | unloading => exact .inr rfl
  | unloaded =>
    obtain rfl : LifecyclePhase.unloaded = p' := h
    rcases hp with hp | hp <;> cases hp
  | unloadFailed =>
    obtain rfl : LifecyclePhase.unloadFailed = p' := h
    rcases hp with hp | hp <;> cases hp

theorem step_phase {a : Action} (ht : Teardown s.control) (h : step ext s a = some s') :
    Succeeds s.phase s'.phase := by
  have hsame : ∀ {p p' : LifecyclePhase}, p' = p → Succeeds p p' := by
    rintro p p' rfl
    exact .refl p'
  cases step_cases h with
  | kept hu hcontrol => exact hsame (congrArg Control.phase hcontrol)
  | closed hserving =>
    rw [hserving]
    trivial
  | answered hp | dropped hk => exact hsame rfl
  | @moved k b call s₁ pc hk hnext =>
    have hphase : s.phase = .unloading := (ht.stage k call hk hnext.executing).1
    rw [hphase]
    change Succeeds .unloading s₁.phase
    rcases hnext.phase with ⟨he, -⟩ | he | he | ⟨he, -⟩
    · exact hsame (he.trans hphase)
    · rw [he]
      trivial
    · rw [he]
      trivial
    · exact hsame (he.trans hphase)

theorem step_id {a : Action} (h : step ext s a = some s') : s'.id = s.id := by
  cases step_cases h with
  | kept hu hcontrol => exact congrArg Control.id hcontrol
  | moved hk hnext => exact hnext.frame.2
  | _ => rfl

theorem step_ended {a : Action} (h : step ext s a = some s') {k : ℕ} {call : UnloadCall}
    (hk : s.unloads[k]? = some call) (hend : call.executing = false) :
    s'.unloads[k]? = some call := by
  have hother : ∀ {j : ℕ} {x : UnloadCall}, s.unloads[j]? = some x → x.executing = true →
      j ≠ k := by
    rintro j x hj hex rfl
    obtain rfl : call = x := Option.some.inj (hk.symm.trans hj)
    rw [hend] at hex
    cases hex
  cases step_cases h with
  | kept hu hcontrol =>
    rw [show s'.unloads = s.unloads from congrArg Control.unloads hcontrol]
    exact hk
  | closed hserving | answered hp => exact Slots.get_push_of_get hk _
  | @moved j b x s₁ pc hj hnext =>
    change (s₁.unloads.set j _)[k]? = some call
    rw [List.getElem?_set_ne (hother hj hnext.executing), hnext.frame.1, hk]
  | @dropped j x hj hex =>
    change (s.unloads.set j _)[k]? = some call
    rw [List.getElem?_set_ne (hother hj hex), hk]

/-! ### Who is tearing an instance down -/

/-- No unload call is dropped once it has closed admission, and no drain budget reaches
past the last instant. -/
def KeepsUnloads (s : State) : Action → Prop
  | .dropUnload _ => False
  | .stepUnload k (.setDeadline now) =>
    ∀ call, s.unloads[k]? = some call → instantAdd now call.drain ≠ none
  | _ => True

/-- An instance whose phase is `unloading` has an unload call still at work. -/
def Attended (c : Control) : Prop :=
  c.phase = .unloading →
    ∃ (k : ℕ) (call : UnloadCall), c.unloads[k]? = some call ∧ call.executing = true

theorem step_attended {a : Action} (hok : KeepsUnloads s a) (hs : Attended s.control)
    (h : step ext s a = some s') : Attended s'.control := by
  cases step_cases h with
  | kept hu hcontrol => rwa [hcontrol]
  | @closed drain hserving =>
    exact fun _ => ⟨s.unloads.length, s.closingCall drain, List.getElem?_concat_length,
      s.closingCall_executing drain⟩
  | answered hp =>
    intro hphase
    obtain ⟨k, call, hk, hex⟩ := hs hphase
    exact ⟨k, call, Slots.get_push_of_get hk _, hex⟩
  | @moved k b call s₁ pc hk hnext =>
    intro hphase
    have hp : s₁.phase = .unloading := hphase
    rcases hnext.phase with ⟨-, hex⟩ | he | he | ⟨-, now, rfl, hnone⟩
    · have hun : s₁.unloads[k]? = some call := by rw [hnext.frame.1, hk]
      exact ⟨k, { call with pc := pc }, Slots.get_set_self hun _, hex⟩
    · rw [hp] at he
      cases he
    · rw [hp] at he
      cases he
    · exact absurd hnone (hok call hk)
  | dropped hk => exact hok.elim

theorem init_attended (h : (system ext).init s) : Attended s.control := by
  obtain ⟨id, identity, capabilities, rfl⟩ := h
  exact nofun

theorem reachableWhile_attended (h : ReachableWhile (system ext) KeepsUnloads s) :
    Attended s.control :=
  h.invariant (fun _ => init_attended) fun _ _ _ _ hs hok hst => step_attended hok hs hst

theorem init_teardown (h : (system ext).init s) : Teardown s.control := by
  obtain ⟨id, identity, capabilities, rfl⟩ := h
  exact teardown_new id identity capabilities

theorem reachable_teardown (h : Reachable (system ext) s) : Teardown s.control :=
  h.invariant (fun _ => init_teardown) fun _ _ _ _ ht _ hst => step_teardown ht hst

end MehoyRuntime.Runtime.LoadedModel
