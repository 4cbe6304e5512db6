import MehoyRuntime.Runtime.Requests

/-!
# Admission closes before anything is cleaned up

From the moment an instance leaves `serving` no request is admitted. The call that
closed admission tells every request it found, and stops the worker afterwards, so at the
first stop every request has ended or knows why it is to stop. An answer that arrives
later finds its request told, and a told request is polled on its token first.
-/

namespace MehoyRuntime.Runtime
open MehoyRuntime.Core MehoyRuntime.Stream TransitionSystem KeyedTable

namespace LoadedModel
variable {ext : Externals} {a : Action} {s s' : State}

/-! ### Nothing is admitted any more -/

/-- `t` holds no request and no table entry that `s` does not hold, and serves no more. -/
structure Closed (s t : State) : Prop where
  phase : t.phase ≠ .serving
  length : t.admitted.length = s.admitted.length
  table : ∀ (id : RequestId) (i : ℕ), t.active.lookup id = some i → s.active.lookup id = some i

theorem Effect.closed (h : Effect ext a s s') (hp : s.phase ≠ .serving) : Closed s s' := by
  cases h with
  | idle hadm hids hact hphase =>
    refine ⟨?_, by rw [hadm], fun id i hi => by rwa [hact] at hi⟩
    rcases hphase with he | he
    · rwa [he]
    · rw [he]
      nofun
  | pruned hadm hids hact hphase =>
    refine ⟨by rwa [hphase], by rw [hadm], fun id i hi => ?_⟩
    rw [hact] at hi
    exact (State.lookup_of_retained hi).1
  | cleared hadm hids hact hphase =>
    refine ⟨?_, by rw [hadm], fun id i hi => ?_⟩
    · rcases hphase with he | ⟨he, -⟩ <;> rw [he] <;> nofun
    · rw [hact, AList.lookup_empty] at hi
      cases hi
  | admitted hbegins hfresh hserving => exact absurd hserving hp
  | moved hi hmove hadm hdrop hids hact hphase =>
    exact ⟨by rwa [hphase], by rw [hadm, List.length_set], fun id i hi => by rwa [hact] at hi⟩

theorem Closed.trans {s t u : State} (h : Closed s t) (h' : Closed t u) : Closed s u :=
  ⟨h'.phase, h'.length.trans h.length, fun id i hi => h.table id i (h'.table id i hi)⟩

theorem closed_of_steps {t : State} (hp : s.phase ≠ .serving)
    (hrun : Steps (system ext) s t) : Closed s t := by
  induction hrun with
  | refl => exact ⟨hp, rfl, fun _ _ hi => hi⟩
  | tail _ hst ih => exact ih.trans ((step_effect hst).closed ih.phase)

/-! ### Everything admitted is told -/

def untold : UnloadPc → List ℕ
  | .cancelling rest => rest
  | _ => []

def ToldBut (s : State) (rest : List ℕ) : Prop :=
  ∀ (i : ℕ) (r : Request), s.admitted[i]? = some r → r.handle.EndedOrTold ∨ i ∈ rest

theorem Effect.toldBut {rest : List ℕ} (h : Effect ext a s s') (hp : s.phase ≠ .serving)
    (ht : ToldBut s rest) : ToldBut s' rest := by
  intro i r' hr'
  rcases h.earlier hr' with ⟨r, hr, rfl | hmove⟩ | ⟨-, hserving, -⟩
  · exact ht i r hr
  · rcases ht i r hr with htold | hi
    · exact .inl (hmove.later.endedOrTold htold)
    · exact .inr hi
  · exact absurd hserving hp

theorem State.tell_toldBut {i : ℕ} {rest : List ℕ} (cause : CancellationCause)
    (ht : ToldBut s (i :: rest)) : ToldBut (s.tell i cause) rest := by
  intro j r' hr'
  unfold State.tell State.onHandle at hr'
  cases hi : s.admitted[i]? with
  | none =>
    rw [hi] at hr'
    rcases ht j r' hr' with htold | hj
    · exact .inl htold
    · rcases List.mem_cons.mp hj with rfl | hj
      · rw [hi] at hr'
        cases hr'
      · exact .inr hj
  | some r =>
    rw [hi] at hr'
    rcases Slots.get_set_cases hr' with ⟨rfl, rfl⟩ | ⟨hne, hr'⟩
    · refine .inl ?_
      rw [Request.withHandle_handle]
      exact RequestHandle.requestCancellation_endedOrTold r.handle cause
    · rcases ht j r' hr' with htold | hj
      · exact .inl htold
      · exact .inr ((List.mem_cons.mp hj).resolve_left hne)

/-- A call at work has told everybody but the rest of its list, and the worker is stopped
only when everybody was. -/
structure Told (s : State) : Prop where
  call : ∀ (k : ℕ) (call : UnloadCall), s.unloads[k]? = some call → call.executing = true →
    ToldBut s (untold call.pc)
  stopped : 0 < s.stopCalls → ToldBut s []

theorem State.closingCall_told (hc : Complete s) (hw : s.lifecycle.worker = true) (drain : ℕ) :
    ToldBut s (untold (s.closingCall drain).pc) := by
  intro i r hr
  cases hopen : r.isTerminal with
  | true => exact .inl (.inl hopen)
  | false =>
    refine .inr ?_
    simp only [State.closingCall, hw, if_true, untold, List.mem_filter]
    refine ⟨mem_values_iff.mpr ⟨_, hc i r hr hopen⟩, ?_⟩
    rw [State.terminalAt_eq hr, hopen]
    rfl

theorem UnloadStep.toldBut (ext : Externals) {k : ℕ} {call : UnloadCall} {action : UnloadAction}
    {s₁ : State} {pc : UnloadPc} (h : UnloadStep s call action s₁ pc)
    (hk : s.unloads[k]? = some call) (hp : s.phase ≠ .serving)
    (ht : ToldBut s (untold call.pc)) (hstop : 0 < s.stopCalls → ToldBut s []) :
    (({ call with pc := pc } : UnloadCall).executing = true → ToldBut s₁ (untold pc)) ∧
    (0 < s₁.stopCalls → ToldBut s₁ []) := by
  have heffect : Effect ext (.stepUnload k action) s s₁ := h.effect hk
  cases h with
  | missing hpc | overlong hpc | finished hpc => exact ⟨nofun, hstop⟩
  | @told i rest hpc =>
    rw [hpc] at ht
    have hcalls : (s.tell i .instanceUnloading).stopCalls = s.stopCalls :=
      congrArg Control.stopCalls (s.onHandle_control i _)
    refine ⟨fun _ => State.tell_toldBut _ ht, fun hcalled => ?_⟩
    rw [hcalls] at hcalled
    exact heffect.toldBut hp (hstop hcalled)
  | stopping hpc =>
    rw [hpc] at ht
    exact ⟨fun _ => ht, fun _ => ht⟩
  | timed hpc | counted hpc | drained hpc | slept hpc | woken hpc | stopped hpc =>
    rw [hpc] at ht
    exact ⟨fun _ => ht, hstop⟩

theorem step_told (hreach : Reachable (system ext) s)
    (hfew : s.admitted.length ≤ 2 ^ 64) (ht : Told s) (h : step ext s a = some s') : Told s' := by
  have hteardown := reachable_teardown hreach
  have hclosed : ∀ (k : ℕ) (call : UnloadCall), s.unloads[k]? = some call →
      call.executing = true → s.phase ≠ .serving := by
    intro k call hk hex hp
    have hphase : s.phase = .unloading := (hteardown.stage k call hk hex).1
    rw [hp] at hphase
    cases hphase
  have hstopped : 0 < s.stopCalls → s.phase ≠ .serving := by
    intro hcalled hp
    have hzero : s.stopCalls = 0 := (hteardown.serving hp).2.1
    omega
  have heffect := step_effect h
  cases step_cases h with
  | kept hu hcontrol =>
    constructor
    · intro k call hk hex
      rw [show s'.unloads = s.unloads from congrArg Control.unloads hcontrol] at hk
      exact heffect.toldBut (hclosed k call hk hex) (ht.call k call hk hex)
    · intro hcalled
      rw [show s'.stopCalls = s.stopCalls from congrArg Control.stopCalls hcontrol] at hcalled
      exact heffect.toldBut (hstopped hcalled) (ht.stopped hcalled)
  -- Nobody was told yet, but the table is complete: all who have not ended are in it.
  | @closed drain hserving =>
    have hw : s.lifecycle.worker = true := (hteardown.serving hserving).1
    have hcomplete := reachable_complete hreach hfew (.inl hserving)
    constructor
    · intro k call hk hex
      rcases Slots.get_push_cases hk with ⟨-, rfl⟩ | hk
      · exact State.closingCall_told hcomplete hw drain
      · exact absurd hserving (hclosed k call hk hex)
    · intro hcalled
      exact absurd hserving (hstopped hcalled)
  | answered hp =>
    constructor
    · intro k call hk hex
      rcases Slots.get_push_cases hk with ⟨-, rfl⟩ | hk
      · cases hex
      · exact ht.call k call hk hex
    · exact ht.stopped
  | @moved k b call s₁ pc hk hnext =>
    have hp := hclosed k call hk hnext.executing
    obtain ⟨hcall, hstop⟩ := hnext.toldBut ext hk hp (ht.call k call hk hnext.executing) ht.stopped
    have hmoved : Effect ext (.stepUnload k b) s s₁ := hnext.effect hk
    constructor
    · intro j other hj hother
      rcases Slots.get_set_cases hj with ⟨rfl, rfl⟩ | ⟨-, hj⟩
      · exact hcall hother
      · rw [hnext.frame.1] at hj
        exact hmoved.toldBut hp (ht.call j other hj hother)
    · exact hstop
  | dropped hk =>
    constructor
    · intro j other hj hother
      rcases Slots.get_set_cases hj with ⟨rfl, rfl⟩ | ⟨-, hj⟩
      · cases hother
      · exact ht.call j other hj hother
    · exact ht.stopped

theorem step_length (h : step ext s a = some s') :
    s.admitted.length ≤ s'.admitted.length := by
  rcases (step_effect h).length with he | ⟨-, he⟩ <;> omega

theorem reachable_told (h : Reachable (system ext) s) (hfew : s.admitted.length ≤ 2 ^ 64) :
    Told s := by
  induction h with
  | init hi =>
    obtain ⟨id, identity, capabilities, rfl⟩ := hi
    exact ⟨fun k call hk => by simp [new] at hk, fun hcalled => by cases hcalled⟩
  | step hreach _ hst ih =>
    have hbefore := Nat.le_trans (step_length hst) hfew
    exact step_told hreach hbefore (ih hbefore) hst

/-! ### Late answers -/

end LoadedModel

/-- Where a future stands to which the answer came after the first stop of the worker: its
request was told, and it returns why. -/
def Whole.AfterStop (w : Whole) : WholePc → Prop
  | .selecting _ | .stopped _ | .dropped => ∃ cause, w.handle.cancellationCause = some cause
  | .returned result =>
    ∃ cause, result = .error (.stopped cause) ∧ w.handle.cancellationCause = some cause
  | .admitted | .sent _ | .verifying _ => False

def Whole.Prompt (w : Whole) : Prop := ∀ x, w.transport = some ⟨true, x⟩ → w.AfterStop w.pc

theorem Whole.Prompt.later {w : Whole} {h : RequestHandle} (hp : w.Prompt)
    (hl : w.handle.Later h) : ({ w with handle := h } : Whole).Prompt := by
  intro x hx
  have hafter := hp x hx
  change ({ w with handle := h } : Whole).AfterStop w.pc
  cases hpc : w.pc with
  | selecting | stopped | dropped =>
    rw [hpc] at hafter
    obtain ⟨cause, hc⟩ := hafter
    exact ⟨cause, hl.cause cause hc⟩
  | returned result =>
    rw [hpc] at hafter
    obtain ⟨cause, hr, hc⟩ := hafter
    exact ⟨cause, hr, hl.cause cause hc⟩
  | admitted | sent | verifying =>
    rw [hpc] at hafter
    cases hafter

/-- A late answer finds its request told, and the select polls the token first. -/
theorem Whole.step_prompt {late : Bool} {w w' : Whole} {a : WholeAction} (hs : w.Stands w.pc)
    (hp : w.Prompt) (htold : late = true → w.handle.EndedOrTold)
    (h : w.step late w.pc a = some w') : w'.Prompt := by
  intro x hx
  cases Whole.step_cases h with
  | running hpc | settled hpc =>
    have hafter := hp x hx
    rw [hpc] at hafter
    cases hafter
  | arrived hpc hnone =>
    obtain rfl : late = true := congrArg Arrival.late (Option.some.inj hx)
    rw [hpc] at hs
    have hopen : w.handle.isTerminal = false := hs
    simp only [hpc]
    rcases htold rfl with hended | hcause
    · rw [hopen] at hended
      cases hended
    · exact hcause
  | @told polled cause hpc hcause => exact ⟨cause, hcause⟩
  | answered hpc hcause | waiting hpc hcause =>
    -- The answer is not late: its request would have been told.
    have hafter := hp x hx
    rw [hpc] at hafter
    obtain ⟨cause, hc⟩ := hafter
    rw [hcause] at hc
    cases hc
  | dropped hpc =>
    have hafter := hp x hx
    rw [hpc] at hafter
    exact hafter
  | @stopped cause hpc =>
    rw [hpc] at hs
    exact ⟨cause, rfl, (RequestHandle.finish_cause w.handle .cancelled).trans hs.2⟩

namespace LoadedModel
variable {ext : Externals} {s s' : State}

theorem Move.prompt {late : Bool} {r : Request} {w' : Whole} (hr : r.Valid ext)
    (hp : ∀ w, r = .whole w → w.Prompt) (htold : late = true → r.handle.EndedOrTold)
    (h : Move ext late r (.whole w')) : w'.Prompt := by
  generalize he : Request.whole w' = r' at h
  cases h with
  | step a ha =>
    subst he
    cases r with
    | whole w =>
      cases a with
      | whole action =>
        obtain ⟨w₁, hw, he⟩ := Option.map_eq_some_iff.mp ha
        cases he
        exact Whole.step_prompt hr (hp w rfl) htold hw
      | _ => cases ha
    | accepted handle body => cases a <;> cases ha
    | stream t =>
      cases a with
      | stream action =>
        obtain ⟨t', -, he⟩ := Option.map_eq_some_iff.mp ha
        cases he
      | _ => cases ha
  | told cause =>
    cases r with
    | whole w =>
      cases he
      exact (hp w rfl).later (RequestHandle.later_requestCancellation _ cause)
    | accepted => cases he
    | stream => cases he
  | verified hpc =>
    rename_i w result
    cases he
    intro x hx
    have hafter := hp w rfl x hx
    rw [hpc] at hafter
    cases hafter

theorem reachable_prompt (h : Reachable (system ext) s) (hfew : s.admitted.length ≤ 2 ^ 64) :
    ∀ (i : ℕ) (w : Whole), s.admitted[i]? = some (.whole w) → w.Prompt := by
  induction h with
  | init hi =>
    obtain ⟨id, identity, capabilities, rfl⟩ := hi
    intro i w hw
    simp [new] at hw
  | @step s s' a hreach _ hst ih =>
    have hbefore := Nat.le_trans (step_length hst) hfew
    intro i w' hw'
    rcases (step_effect hst).earlier hw' with ⟨r, hr, rfl | hmove⟩ | ⟨-, -, hfresh⟩
    · exact ih hbefore i w' hr
    · refine hmove.prompt (reachable_valid hreach i r hr) (fun w he => ?_) fun hlate => ?_
      · exact ih hbefore i w (he ▸ hr)
      · have hcalled : 0 < s.stopCalls := of_decide_eq_true hlate
        exact ((reachable_told hreach hbefore).stopped hcalled i r hr).resolve_right
          (List.not_mem_nil)
    · rcases hfresh with ⟨request, verify, he⟩ | ⟨body, he⟩
      · cases he
        intro x hx
        cases hx
      · cases he

/-! ### What a refused request is told -/

def Refusal (err : LoadError) : Prop :=
  (∃ state, err = .notUsable state) ∨ ∃ detail, err = .invalidRequest detail

theorem State.begin_refused (s : State) {valid : Except LoadError Unit}
    (hvalid : ∀ err, valid = .error err → Refusal err) (request : RequestHandle → Request) :
    ∀ err ∈ (s.begin valid request).refused, err ∈ s.refused ∨ Refusal err := by
  unfold State.begin
  cases valid with
  | error invalid =>
    intro err herr
    rcases List.mem_append.mp herr with herr | herr
    · exact .inl herr
    · exact .inr (hvalid err (by rw [List.mem_singleton.mp herr]))
  | ok =>
    dsimp only
    cases hadmit : s.admitRequest request with
    | error refusal =>
      intro err herr
      rcases List.mem_append.mp herr with herr | herr
      · exact .inl herr
      · rw [List.mem_singleton.mp herr]
        unfold State.admitRequest at hadmit
        split at hadmit
        · cases hadmit
          exact .inr (.inl ⟨_, rfl⟩)
        · split at hadmit <;> cases hadmit
          exact .inr (.inl ⟨_, rfl⟩)
    | ok s' =>
      unfold State.admitRequest at hadmit
      split at hadmit
      · cases hadmit
      · split at hadmit <;> cases hadmit
        exact fun err herr => .inl herr

theorem validParameters_refusal (request : GenerateTextRequest) (err : LoadError)
    (h : State.validParameters request = .error err) : Refusal err := by
  unfold State.validParameters at h
  split at h <;> cases h
  exact .inr ⟨_, rfl⟩

theorem State.onHandle_refused (s : State) (i : ℕ) (f : RequestHandle → RequestHandle) :
    (s.onHandle i f).refused = s.refused := by
  unfold State.onHandle
  split <;> rfl

theorem UnloadStep.refused {call : UnloadCall} {action : UnloadAction} {s₁ : State}
    {pc : UnloadPc} (h : UnloadStep s call action s₁ pc) : s₁.refused = s.refused := by
  cases h with
  | told => exact s.onHandle_refused _ _
  | _ => rfl

theorem step_refused (h : step ext s a = some s') :
    ∀ err ∈ s'.refused, err ∈ s.refused ∨ Refusal err := by
  have hkept : s'.refused = s.refused → ∀ err ∈ s'.refused, err ∈ s.refused ∨ Refusal err :=
    fun he err herr => .inl (he ▸ herr)
  cases step_cases h with
  | closed | answered | dropped => exact hkept rfl
  | moved hk hnext => exact hkept hnext.refused
  | kept hu hcontrol =>
    cases a with
    | embed request verify =>
      cases h
      exact s.begin_refused (fun _ he => by cases he) _
    | generateText request verify | generateStream request body =>
      cases h
      exact s.begin_refused (validParameters_refusal request) _
    | request i action =>
      obtain ⟨r, -, h⟩ := Option.bind_eq_some_iff.mp h
      obtain ⟨r', -, rfl⟩ := Option.map_eq_some_iff.mp h
      exact hkept rfl
    | recordVerified i now =>
      simp only [step, State.recordVerified] at h
      split at h
      · split at h <;> cases h
        exact hkept rfl
      · cases h
    | recordGenerationStream demonstrated now =>
      cases h
      refine hkept ?_
      unfold State.recordGenerationStream
      split <;> rfl
    | cancel requestId =>
      cases h
      refine hkept ?_
      unfold State.cancel
      dsimp only
      split <;> rfl
    | stepCancel k =>
      obtain ⟨call, -, h⟩ := Option.bind_eq_some_iff.mp h
      obtain ⟨⟨s₁, call'⟩, hnext, rfl⟩ := Option.map_eq_some_iff.mp h
      refine hkept ?_
      rcases (State.cancelNext_cases hnext).1 with rfl | ⟨i, rfl⟩
      · rfl
      · exact s.onHandle_refused i _
    | activeRequests =>
      cases h
      exact hkept rfl
    | beginUnload | stepUnload | dropUnload => cases hu

theorem reachable_refused (h : Reachable (system ext) s) : ∀ err ∈ s.refused, Refusal err := by
  induction h with
  | init hi =>
    obtain ⟨id, identity, capabilities, rfl⟩ := hi
    exact fun err herr => by cases herr
  | step _ _ hst ih =>
    exact fun err herr => (step_refused hst err herr).elim (ih err) id

/-! ### The order of an unload -/

/-- As long as no identifier was handed out twice: once the instance serves no more nothing
is inserted into its table; when its worker is stopped every request ever admitted has
ended or carries the cause it was told; and no request returns what became of an answer that came
after that, but why it was stopped. -/
theorem unload_order (hs : Reachable (system ext) s) (hfew : s.admitted.length ≤ 2 ^ 64) :
    (s.phase ≠ .serving → ∀ t, Steps (system ext) s t → Closed s t) ∧
    (∀ k t, step ext s (.stepUnload k .callStop) = some t →
      s.stopCalls = 0 ∧ ∀ (i : ℕ) (r : Request), s.admitted[i]? = some r →
        r.isTerminal = true ∨ ∃ cause, r.handle.cancellationCause = some cause) ∧
    (∀ err ∈ s.refused, Refusal err) ∧
    ∀ (i : ℕ) (w : Whole) (result : Except LoadError WholeResult),
      s.admitted[i]? = some (.whole w) → w.pc = .returned result →
      (∃ cause, result = .error (.stopped cause) ∧ w.handle.cancellationCause = some cause) ∨
      ∃ x, w.transport = some ⟨false, x⟩ ∧ (conclude w.request x).2 = result := by
  refine ⟨fun hp t hrun => closed_of_steps hp hrun, ?_, reachable_refused hs, ?_⟩
  · intro k t hstop
    cases step_cases hstop with
    | kept hu => cases hu
    | @moved _ _ call s₁ pc hk hnext =>
      cases hnext with
      | stopping hpc =>
        have hex : call.executing = true := by simp only [UnloadCall.executing, hpc]
        have htold := (reachable_told hs hfew).call k call hk hex
        obtain ⟨-, hstage⟩ := (reachable_teardown hs).stage k call hk hex
        rw [hpc] at htold hstage
        -- The list of the call is empty at its stop, so everybody was told.
        refine ⟨hstage.1, fun i r hr => ?_⟩
        exact (htold i r hr).resolve_right List.not_mem_nil
  · intro i w result hw hpc
    have hstands : w.Stands w.pc := reachable_valid hs i _ hw
    have hprompt := reachable_prompt hs hfew i w hw
    rw [hpc] at hstands
    rcases hstands.2 with hstopped | ⟨late, x, harrived, hresult⟩
    · exact .inl hstopped
    · cases late with
      | false => exact .inr ⟨x, harrived, hresult⟩
      -- An answer after the stop finds its request told, and the select polls the token first.
      | true =>
        have hafter := hprompt x harrived
        rw [hpc] at hafter
        exact .inl hafter

def sampleInstance : State := new ⟨"a1"⟩ none fun _ => .unknown

theorem sampleInstance_init (ext : Externals) : (system ext).init sampleInstance :=
  ⟨_, _, _, rfl⟩

def sampleText : EmbedRequest := ⟨["x"]⟩

/-- An instance is unloaded under a request whose connection breaks when the worker stops. -/
def stoppedUnder : List Action :=
  [.embed sampleText false, .request 0 (.whole .markRunning), .request 0 (.whole .poll),
    .beginUnload 0, .stepUnload 0 .tell, .stepUnload 0 (.setDeadline 0), .stepUnload 0 .count,
    .stepUnload 0 (.decide 0), .stepUnload 0 .callStop,
    .request 0 (.whole (.arrive (.embed (.error (.transport "connection closed"))))),
    .request 0 (.whole .poll), .request 0 (.whole .settle)]

theorem unload_order_stoppedUnder :
    ∃ s, (system sampleExternals).run sampleInstance stoppedUnder = some s ∧
      ∃ w, s.admitted[0]? = some (.whole w) ∧
        w.transport = some ⟨true, .embed (.error (.transport "connection closed"))⟩ ∧
        w.pc = .returned (.error (.stopped .instanceUnloading)) ∧
        w.handle.cancellationCause = some .instanceUnloading := by
  obtain ⟨s, hrun, hfew, w, hw, htransport, hpc⟩ :
      ∃ s, (system sampleExternals).run sampleInstance stoppedUnder = some s ∧
        s.admitted.length = 1 ∧ ∃ w, s.admitted[0]? = some (.whole w) ∧
        w.transport = some ⟨true, .embed (.error (.transport "connection closed"))⟩ ∧
        w.pc = .returned (.error (.stopped .instanceUnloading)) :=
    ⟨_, rfl, rfl, _, rfl, rfl, rfl⟩
  have hs := reachable_of_run (.init (sampleInstance_init sampleExternals)) hrun
  have horder := unload_order hs (by rw [hfew]; decide)
  refine ⟨s, hrun, w, hw, htransport, hpc, ?_⟩
  rcases horder.2.2.2 0 w _ hw hpc with ⟨cause, he, hc⟩ | ⟨x, hx, -⟩
  · cases he
    exact hc
  · rw [htransport] at hx
    cases hx

/-! After `2 ^ 64` admissions the identifier of a request that is still running is handed
out again, and its table entry is overwritten: nobody tells it to stop. -/

theorem steps_of_whole (ext : Externals) {i : ℕ} {w : Whole} {as : List WholeAction} {w' : Whole}
    (hi : s.admitted[i]? = some (.whole w))
    (hrun : as.foldlM (fun x a => Whole.step (0 < s.stopCalls) x x.pc a) w = some w') :
    Steps (system ext) s { s with admitted := s.admitted.set i (.whole w') } := by
  induction as generalizing s w with
  | nil =>
    obtain rfl : w = w' := Option.some.inj hrun
    obtain ⟨hlt, hget⟩ := List.getElem?_eq_some_iff.mp hi
    rw [← hget, List.set_getElem_self]
    exact .refl
  | cons a as ih =>
    rw [List.foldlM_cons] at hrun
    obtain ⟨x, hx, hrest⟩ := Option.bind_eq_some_iff.mp hrun
    have hstep : (system ext).step s (.request i (.whole a)) =
        some { s with admitted := s.admitted.set i (.whole x) } := by
      change s.stepRequest ext i (.whole a) = _
      rw [State.stepRequest, hi, Option.bind_some, Request.step, hx]
      rfl
    have hset : ({ s with admitted := s.admitted.set i (.whole x) } : State).admitted[i]? =
        some (.whole x) := Slots.get_set_self hi _
    have htail := ih hset hrest
    simp only [List.set_set] at htail
    exact (Steps.single _ hstep).trans htail

theorem stepUnload_of_next (ext : Externals) {k : ℕ} {call : UnloadCall} {a : UnloadAction} {s₁ : State}
    {pc : UnloadPc} (hk : s.unloads[k]? = some call)
    (hnext : s.unloadNext call call.pc a = some (s₁, pc)) :
    (system ext).step s (.stepUnload k a) = some (s₁.setUnload k { call with pc := pc }) := by
  change s.stepUnload k a = _
  rw [State.stepUnload, hk, Option.bind_some, hnext, Option.map_some]

theorem steps_of_cancelling (ext : Externals) {k : ℕ} {call : UnloadCall} {rest : List ℕ}
    (hk : s.unloads[k]? = some call) (hpc : call.pc = .cancelling rest) :
    ∃ t, Steps (system ext) s t ∧ t.unloads[k]? = some { call with pc := .cancelling [] } ∧
      ∀ i ∉ rest, t.admitted[i]? = s.admitted[i]? := by
  induction rest generalizing s call with
  | nil =>
    refine ⟨s, .refl, ?_, fun _ _ => rfl⟩
    rw [hk, ← hpc]
  | cons j rest ih =>
    have hnext : s.unloadNext call call.pc .tell =
        some (s.tell j .instanceUnloading, .cancelling rest) := by rw [hpc]; rfl
    have hstep := stepUnload_of_next ext hk hnext
    have hunloads : (s.tell j .instanceUnloading).unloads[k]? = some call := by
      rw [(State.unloadNext_cases hnext).frame.1, hk]
    have hk' : ((s.tell j .instanceUnloading).setUnload k
        { call with pc := .cancelling rest }).unloads[k]? =
        some { call with pc := .cancelling rest } := Slots.get_set_self hunloads _
    obtain ⟨t, hsteps, ht, hadm⟩ := ih hk' rfl
    refine ⟨t, (Steps.single _ hstep).trans hsteps, ht, fun i hi => ?_⟩
    obtain ⟨hne, hrest⟩ := not_or.mp (mt List.mem_cons.mpr hi)
    rw [hadm i hrest]
    change (s.tell j .instanceUnloading).admitted[i]? = s.admitted[i]?
    unfold State.tell State.onHandle
    split
    · exact List.getElem?_set_ne (Ne.symm hne)
    · rfl

theorem steps_of_counting (ext : Externals) {k : ℕ} {call : UnloadCall} {deadline : ℕ}
    {rest : List ℕ} {n : ℕ}
    (hk : s.unloads[k]? = some call) (hpc : call.pc = .counting deadline rest n) :
    ∃ t unsettled, Steps (system ext) s t ∧
      t.unloads[k]? = some { call with pc := .counting deadline [] unsettled } ∧
      t.admitted = s.admitted := by
  induction rest generalizing s call n with
  | nil =>
    refine ⟨s, n, .refl, ?_, rfl⟩
    rw [hk, ← hpc]
  | cons j rest ih =>
    have hnext : s.unloadNext call call.pc .count =
        some (s, .counting deadline rest (if s.terminalAt j then n else n + 1)) := by
      rw [hpc]
      rfl
    have hstep := stepUnload_of_next ext hk hnext
    have hk' : (s.setUnload k { call with
        pc := .counting deadline rest (if s.terminalAt j then n else n + 1) }).unloads[k]? =
        some { call with pc := .counting deadline rest (if s.terminalAt j then n else n + 1) } :=
      Slots.get_set_self hk _
    obtain ⟨t, unsettled, hsteps, ht, hadm⟩ := ih hk' rfl
    exact ⟨t, unsettled, (Steps.single _ hstep).trans hsteps, ht, hadm⟩

theorem steps_to_stop (ext : Externals) {k : ℕ} {outstanding rest : List ℕ}
    (hk : s.unloads[k]? = some ⟨0, outstanding, .cancelling rest⟩) :
    ∃ t u, Steps (system ext) s t ∧ step ext t (.stepUnload k .callStop) = some u ∧
      ∀ i ∉ rest, t.admitted[i]? = s.admitted[i]? := by
  obtain ⟨t₁, h₁, hk₁, hadm₁⟩ := steps_of_cancelling ext hk rfl
  have hnext₁ : t₁.unloadNext ⟨0, outstanding, .cancelling []⟩ (.cancelling []) (.setDeadline 0) =
      some (t₁, .counting 0 outstanding 0) := rfl
  have hstep₁ := stepUnload_of_next ext hk₁ hnext₁
  have hk₁' : (t₁.setUnload k ⟨0, outstanding, .counting 0 outstanding 0⟩).unloads[k]? =
      some ⟨0, outstanding, .counting 0 outstanding 0⟩ := Slots.get_set_self hk₁ _
  obtain ⟨t₂, unsettled, h₂, hk₂, hadm₂⟩ := steps_of_counting ext hk₁' rfl
  have hnext₂ : t₂.unloadNext ⟨0, outstanding, .counting 0 [] unsettled⟩
      (.counting 0 [] unsettled) (.decide 0) = some (t₂, .drained unsettled) := by
    simp only [State.unloadNext]
    split
    · rename_i h
      rw [h]
    · rfl
  have hstep₂ := stepUnload_of_next ext hk₂ hnext₂
  have hk₃ : (t₂.setUnload k ⟨0, outstanding, .drained unsettled⟩).unloads[k]? =
      some ⟨0, outstanding, .drained unsettled⟩ := Slots.get_set_self hk₂ _
  have hsteps := ((h₁.trans (.single _ hstep₁)).trans h₂).trans (.single _ hstep₂)
  have hstop : step ext (t₂.setUnload k ⟨0, outstanding, .drained unsettled⟩)
      (.stepUnload k .callStop) = _ := stepUnload_of_next ext hk₃ rfl
  refine ⟨_, _, hsteps, hstop, fun i hi => ?_⟩
  change t₂.admitted[i]? = s.admitted[i]?
  rw [hadm₂]
  exact hadm₁ i hi

structure Waiting (a : Request) (s : State) : Prop where
  reachable : Reachable (system sampleExternals) s
  phase : s.phase = .serving
  usable : s.state = .backendReady
  first : s.admitted[0]? = some a

def sampleEmbed (handle : RequestHandle) : Whole :=
  ⟨.embed sampleText, false, handle, none, .admitted⟩

theorem State.embed_serving (hp : s.phase = .serving) (hu : s.state = .backendReady) :
    s.embed sampleText false = { s with
      requests := s.requests.request.2
      admitted := s.admitted ++ [.whole (sampleEmbed (.new s.requests.request.1))]
      lifecycle := { s.lifecycle with
        active := s.retained.insert s.requests.request.1 s.admitted.length } } := by
  simp [State.embed, State.begin, State.admitRequest, hp, hu, InstanceState.isUsable,
    State.wholeRequest, sampleEmbed]

def brokenOff : List WholeAction :=
  [.markRunning, .arrive (.embed (.error (.transport "connection closed"))), .poll, .settle]

theorem Waiting.embed {a : Request} (hw : Waiting a s) : Waiting a (s.embed sampleText false) := by
  have hembed : (system sampleExternals).step s (.embed sampleText false) =
      some (s.embed sampleText false) := rfl
  have hserving := State.embed_serving hw.phase hw.usable
  refine ⟨hw.reachable.next _ hembed, ?_, ?_, ?_⟩
  · rw [hserving]
    exact hw.phase
  · rw [hserving]
    exact hw.usable
  · rw [hserving]
    exact Slots.get_push_of_get hw.first _

theorem Waiting.round {a : Request} (hw : Waiting a s) :
    ∃ t, Waiting a t ∧ t.admitted.length = s.admitted.length + 1 := by
  have hnext := hw.embed
  have hnew : (s.embed sampleText false).admitted[s.admitted.length]? =
      some (.whole (sampleEmbed (.new s.requests.request.1))) := by
    rw [State.embed_serving hw.phase hw.usable]
    exact List.getElem?_concat_length
  have hrun : brokenOff.foldlM
      (fun x a => Whole.step (0 < (s.embed sampleText false).stopCalls) x x.pc a)
      (sampleEmbed (.new s.requests.request.1)) = some _ := rfl
  have hsteps := steps_of_whole sampleExternals hnew hrun
  refine ⟨_, ⟨hsteps.reachable hnext.reachable, hnext.phase, hnext.usable, ?_⟩, ?_⟩
  · have hpos : 0 < s.admitted.length := by
      obtain ⟨hlt, -⟩ := List.getElem?_eq_some_iff.mp hw.first
      exact hlt
    have hne : s.admitted.length ≠ 0 := by omega
    rw [List.getElem?_set_ne hne]
    exact hnext.first
  · rw [List.length_set, State.embed_serving hw.phase hw.usable, List.length_append,
      List.length_singleton]

theorem Waiting.rounds {a : Request} (hw : Waiting a s) (n : ℕ) :
    ∃ t, Waiting a t ∧ t.admitted.length = s.admitted.length + n := by
  induction n with
  | zero => exact ⟨s, hw, rfl⟩
  | succ n ih =>
    obtain ⟨t, ht, hlen⟩ := ih
    obtain ⟨u, hu, hnext⟩ := ht.round
    exact ⟨u, hu, by omega⟩

def firstRequest : Request :=
  .whole { sampleEmbed ⟨⟨1⟩, .running, ⟨none⟩⟩ with pc := .selecting true }

def untilSelecting : List Action :=
  [.embed sampleText false, .request 0 (.whole .markRunning), .request 0 (.whole .poll)]

theorem waiting_first : ∃ s, Waiting firstRequest s ∧ s.admitted.length = 1 := by
  obtain ⟨s, hrun, hp, hu, hfirst, hlen⟩ :
      ∃ s, (system sampleExternals).run sampleInstance untilSelecting = some s ∧
        s.phase = .serving ∧ s.state = .backendReady ∧ s.admitted[0]? = some firstRequest ∧
        s.admitted.length = 1 := ⟨_, rfl, rfl, rfl, rfl, rfl⟩
  exact ⟨s, ⟨reachable_of_run (.init (sampleInstance_init _)) hrun, hp, hu, hfirst⟩, hlen⟩

/-- The identifier after `2 ^ 64` of them is the first one again. -/
theorem Waiting.overwritten {a : Request} (hw : Waiting a s) (ha : a.handle.id = ⟨1⟩)
    (hlen : s.admitted.length = 2 ^ 64) : 0 ∉ values (s.embed sampleText false).active := by
  intro hmem
  obtain ⟨id, hid⟩ := mem_values_iff.mp hmem
  obtain ⟨r, hr, hkey⟩ := reachable_keyed hw.embed.reachable id 0 hid
  obtain rfl : a = r := Option.some.inj (hw.embed.first.symm.trans hr)
  have hnext : s.requests.request.1 = ⟨1⟩ := by
    rw [(reachable_numbered hw.reachable).request, hlen, Nat.add_comm, Word.ofNat_add_wrap]
    rfl
  rw [State.embed_serving hw.phase hw.usable] at hid
  change (s.retained.insert s.requests.request.1 s.admitted.length).lookup id = some 0 at hid
  rw [hnext, ← hkey, ha, AList.lookup_insert, hlen] at hid
  cases hid

theorem unload_strands_a_request :
    ¬ ∀ (ext : Externals) (s : State), Reachable (system ext) s → ∀ k t,
      step ext s (.stepUnload k .callStop) = some t →
      ∀ (i : ℕ) (r : Request), s.admitted[i]? = some r →
        r.isTerminal = true ∨ ∃ cause, r.handle.cancellationCause = some cause := by
  intro hclaim
  obtain ⟨s₁, hw₁, hlen₁⟩ := waiting_first
  obtain ⟨s₂, hw₂, hlen₂⟩ := hw₁.rounds (2 ^ 64 - 1)
  have hlen : s₂.admitted.length = 2 ^ 64 := by omega
  have hmissing := hw₂.overwritten rfl hlen
  obtain ⟨hreach, hp, -, hfirst⟩ := hw₂.embed
  generalize s₂.embed sampleText false = s₃ at hmissing hreach hp hfirst
  have hbegin : (system sampleExternals).step s₃ (.beginUnload 0) = some (s₃.beginUnload 0) := rfl
  have hclosed := hreach.next _ hbegin
  have hworker : s₃.lifecycle.worker = true := ((reachable_teardown hreach).serving hp).1
  have hcall : (s₃.beginUnload 0).unloads[s₃.unloads.length]? =
      some ⟨0, (values s₃.active).filter fun i => !s₃.terminalAt i,
        .cancelling ((values s₃.active).filter fun i => !s₃.terminalAt i)⟩ := by
    rw [State.beginUnload_serving hp, State.closingCall, hworker]
    exact List.getElem?_concat_length
  obtain ⟨t, u, hsteps, hstop, hadm⟩ := steps_to_stop sampleExternals hcall
  have hkept : t.admitted[0]? = some firstRequest := by
    rw [hadm 0 fun hmem => hmissing (List.mem_filter.mp hmem).1, State.beginUnload_serving hp]
    exact hfirst
  rcases hclaim sampleExternals t (hsteps.reachable hclosed) _ u hstop 0 _ hkept with
    hended | ⟨cause, hcause⟩
  · cases hended
  · cases hcause

end LoadedModel
end MehoyRuntime.Runtime
