import MehoyRuntime.Stream.Demonstration
import MehoyRuntime.Runtime.Accounting
import MehoyRuntime.Runtime.Requests

/-!
# Who has demonstrated a capability

A capability is verified on an instance after a request that the instance has admitted and
completed itself, unless a stream of another instance is recorded on it.
-/

namespace MehoyRuntime.Runtime
open MehoyRuntime.Core MehoyRuntime.Stream TransitionSystem KeyedTable
variable {ext : Externals}

/-! ### Requests that have their result -/

/-- The result is of the request's own kind and has passed its checks. -/
def WholeRequest.Accepts : WholeRequest → WholeResult → Prop
  | .embed asked, .embeddings result => validate asked result = .ok ()
  | .generateText _, .generation result => validateGeneration result = .ok ()
  | _, _ => False

theorem conclude_ok {request : WholeRequest} {sent : Sent} {result : WholeResult}
    (h : (conclude request sent).2 = .ok result) :
    (conclude request sent).1 = .completed ∧ request.Accepts result := by
  unfold conclude at h ⊢
  split
  case h_1 => cases h
  case h_2 =>
    split
    · rename_i hdefect
      simp only [hdefect] at h
      cases h
    · rename_i hvalid
      simp only [hvalid] at h
      cases h
      exact ⟨rfl, hvalid⟩
  case h_3 => cases h
  case h_4 =>
    split
    · rename_i hdefect
      simp only [hdefect] at h
      cases h
    · rename_i hvalid
      simp only [hvalid] at h
      cases h
      exact ⟨rfl, hvalid⟩
  case h_5 => cases h
  case h_6 => cases h

theorem validateGeneration_ok {result : GenerationResult}
    (h : validateGeneration result = .ok ()) : result.text ≠ "" := by
  intro hempty
  simp [validateGeneration, hempty] at h

def Whole.Fulfilled (w : Whole) : WholePc → Prop
  | .verifying result | .returned (.ok result) =>
    w.handle.state = .completed ∧ w.request.Accepts result
  | _ => True

def Request.Fulfilled : Request → Prop
  | .whole w => w.Fulfilled w.pc
  | .accepted _ _ | .stream _ => True

theorem Whole.Fulfilled.later {w : Whole} {h : RequestHandle} (hs : w.Fulfilled w.pc)
    (hl : w.handle.Later h) : ({ w with handle := h } : Whole).Fulfilled w.pc := by
  cases hpc : w.pc with
  | verifying result =>
    rw [hpc] at hs
    exact ⟨completed_later hl hs.1, hs.2⟩
  | returned result =>
    rw [hpc] at hs
    cases result with
    | error err => trivial
    | ok result => exact ⟨completed_later hl hs.1, hs.2⟩
  | _ => trivial

theorem Whole.step_fulfilled {late : Bool} {w w' : Whole} {a : WholeAction}
    (hstands : w.Stands w.pc) (hs : w.Fulfilled w.pc) (h : w.step late w.pc a = some w') :
    w'.Fulfilled w'.pc := by
  cases Whole.step_cases h with
  | arrived hpc hnone => exact hs
  | @settled sent hpc =>
    rw [hpc] at hstands
    cases hresult : (conclude w.request sent).2 with
    | error err => trivial
    | ok result =>
      obtain ⟨hcompleted, haccepts⟩ := conclude_ok hresult
      have hstate : (w.handle.finish (conclude w.request sent).1).2.state = .completed := by
        rw [RequestHandle.finish_of_not_terminal hstands.1, hcompleted]
      cases hverify : w.verify <;> simp only [Whole.finish, Whole.resultPc, hverify] <;>
        exact ⟨hstate, haccepts⟩
  | _ => trivial

/-- The request completed, with a validated result that is of the capability's kind. -/
def Request.Demonstrates : Request → ModelCapability → Prop
  | .whole w, .embeddings => w.handle.state = .completed ∧ ∃ asked result,
      w.request = .embed asked ∧ w.pc = .returned (.ok (.embeddings result)) ∧
        validate asked result = .ok ()
  | .whole w, .textGeneration => w.handle.state = .completed ∧ ∃ asked result,
      w.request = .generateText asked ∧ w.pc = .returned (.ok (.generation result)) ∧
        validateGeneration result = .ok () ∧ result.text ≠ ""
  | .stream t, .textGeneration => Stream.Demonstrated t
  | _, _ => False

theorem demonstrates_verified {w : Whole} {result : WholeResult} (hpc : w.pc = .verifying result)
    (hs : w.Fulfilled w.pc) :
    (Request.whole { w with pc := .returned (.ok result) }).Demonstrates w.request.capability := by
  rw [hpc] at hs
  obtain ⟨hcompleted, haccepts⟩ := hs
  cases hrequest : w.request with
  | embed asked =>
    cases result with
    | embeddings result =>
      rw [hrequest] at haccepts
      exact ⟨hcompleted, asked, result, rfl, rfl, haccepts⟩
    | generation result =>
      rw [hrequest] at haccepts
      cases haccepts
  | generateText asked =>
    cases result with
    | embeddings result =>
      rw [hrequest] at haccepts
      cases haccepts
    | generation result =>
      rw [hrequest] at haccepts
      exact ⟨hcompleted, asked, result, rfl, rfl, haccepts, validateGeneration_ok haccepts⟩

theorem demonstrates_whole {w : Whole} {capability : ModelCapability}
    (h : (Request.whole w).Demonstrates capability) : ∃ result, w.pc = .returned (.ok result) := by
  cases capability with
  | embeddings | textGeneration =>
    obtain ⟨-, asked, result, -, hpc, -⟩ := h
    exact ⟨_, hpc⟩
  | _ => cases h

theorem whole_step_returned {late : Bool} {w w' : Whole} {a : WholeAction}
    (h : w.step late w.pc a = some w') (result : Except LoadError WholeResult) :
    w.pc ≠ .returned result := by
  intro hreturned
  rw [hreturned] at h
  cases h

namespace LoadedModel
variable {s s' : State} {a : Action}

theorem Move.fulfilled {late : Bool} {r r' : Request} (hv : r.Valid ext) (hr : r.Fulfilled)
    (h : Move ext late r r') : r'.Fulfilled := by
  cases h with
  | step a ha =>
    cases r with
    | whole w =>
      cases a with
      | whole action =>
        obtain ⟨w', hw, rfl⟩ := Option.map_eq_some_iff.mp ha
        exact Whole.step_fulfilled hv hr hw
      | _ => cases ha
    | accepted handle body =>
      cases a with
      | startGeneration =>
        cases ha
        trivial
      | _ => cases ha
    | stream t =>
      cases a with
      | stream action =>
        obtain ⟨t', -, rfl⟩ := Option.map_eq_some_iff.mp ha
        trivial
      | _ => cases ha
  | told cause =>
    cases r with
    | whole w =>
      have hs : w.Fulfilled w.pc := hr
      exact hs.later (RequestHandle.later_requestCancellation _ cause)
    | accepted handle body => trivial
    | stream t => trivial
  | @verified w result hpc =>
    have hs : w.Fulfilled w.pc := hr
    rw [hpc] at hs
    exact hs

theorem Fresh.fulfilled {handle : RequestHandle} {r : Request} (h : Fresh handle r) :
    r.Fulfilled := by
  rcases h with ⟨request, verify, rfl⟩ | ⟨body, rfl⟩ <;> trivial

theorem reachable_fulfilled (h : Reachable (system ext) s) :
    ∀ (i : ℕ) (r : Request), s.admitted[i]? = some r → r.Fulfilled :=
  reachable_requests Fresh.fulfilled
    (fun hreach hadmitted hr hmove => hmove.fulfilled (reachable_valid hreach _ _ hadmitted) hr) h

/-- A demonstration stays one. -/
theorem Move.demonstrates {late : Bool} {r r' : Request} {capability : ModelCapability}
    (hr : r.Demonstrates capability) (h : Move ext late r r') : r'.Demonstrates capability := by
  cases h with
  | step a ha =>
    cases r with
    | whole w =>
      cases a with
      | whole action =>
        obtain ⟨w', hw, rfl⟩ := Option.map_eq_some_iff.mp ha
        obtain ⟨result, hpc⟩ := demonstrates_whole hr
        exact absurd hpc (whole_step_returned hw _)
      | _ => cases ha
    | accepted handle body => cases capability <;> cases hr
    | stream t =>
      cases a with
      | stream action =>
        obtain ⟨t', ht, rfl⟩ := Option.map_eq_some_iff.mp ha
        cases capability with
        | textGeneration => exact Demonstrated.step hr ht
        | _ => cases hr
      | _ => cases ha
  | told cause =>
    have hlater := RequestHandle.later_requestCancellation r.handle cause
    cases r with
    | whole w =>
      cases capability with
      | embeddings | textGeneration => exact ⟨completed_later hlater hr.1, hr.2⟩
      | _ => cases hr
    | accepted handle body => cases capability <;> cases hr
    | stream t =>
      cases capability with
      | textGeneration =>
        have htold : Stream.step ext t (.requestCancellation cause) = some _ := rfl
        exact Demonstrated.step hr htold
      | _ => cases hr
  | @verified w result hpc =>
    obtain ⟨result', hreturned⟩ := demonstrates_whole hr
    rw [hpc] at hreturned
    cases hreturned

/-! ### What changes the capabilities -/

def State.credentials (s : State) : Option BackendIdentity × ModelCapabilities :=
  (s.identity, s.capabilities)

theorem State.onHandle_credentials (s : State) (i : ℕ) (f : RequestHandle → RequestHandle) :
    (s.onHandle i f).credentials = s.credentials := by
  unfold State.onHandle
  split <;> rfl

theorem State.begin_credentials (s : State) (valid : Except LoadError Unit)
    (request : RequestHandle → Request) : (s.begin valid request).credentials = s.credentials := by
  unfold State.begin State.admitRequest
  split
  · rfl
  · split
    · rfl
    · rename_i hadmit
      split at hadmit
      · cases hadmit
      · split at hadmit <;> cases hadmit
        rfl

theorem UnloadStep.credentials {call : UnloadCall} {b : UnloadAction} {s₁ : State} {pc : UnloadPc}
    (h : UnloadStep s call b s₁ pc) : s₁.credentials = s.credentials := by
  cases h with
  | told hpc => exact s.onHandle_credentials _ _
  | _ => rfl

/-- A step changes the capabilities where a request's result is accepted and where a stream
is recorded. -/
inductive Verifies (s : State) (a : Action) (s' : State) : Prop
  | kept (hkept : s'.credentials = s.credentials)
  | whole {i now w result} (hi : s.admitted[i]? = some (.whole w)) (hpc : w.pc = .verifying result)
      (hnew : s' = State.verify
        { s with admitted := s.admitted.set i (.whole { w with pc := .returned (.ok result) }) }
        w.request.capability now)
  | stream {now} (ha : a = .recordGenerationStream true now)
      (hnew : s' = s.verify .textGeneration now)

theorem step_verifies (h : step ext s a = some s') : Verifies s a s' := by
  cases a with
  | embed request verify =>
    cases h
    exact .kept (s.begin_credentials _ _)
  | generateText request verify =>
    cases h
    exact .kept (s.begin_credentials _ _)
  | generateStream request body =>
    cases h
    exact .kept (s.begin_credentials _ _)
  | request i action =>
    obtain ⟨r, -, h⟩ := Option.bind_eq_some_iff.mp h
    obtain ⟨r', -, rfl⟩ := Option.map_eq_some_iff.mp h
    exact .kept rfl
  | recordVerified i now =>
    simp only [step, State.recordVerified] at h
    split at h
    · rename_i w hi
      split at h <;> cases h
      rename_i result hpc
      exact .whole hi hpc rfl
    · cases h
  | recordGenerationStream demonstrated now =>
    cases h
    cases demonstrated with
    | true => exact .stream rfl rfl
    | false => exact .kept rfl
  | cancel requestId =>
    cases h
    unfold State.cancel
    dsimp only
    split <;> exact .kept rfl
  | stepCancel k =>
    obtain ⟨call, -, h⟩ := Option.bind_eq_some_iff.mp h
    obtain ⟨⟨s₁, call'⟩, hnext, rfl⟩ := Option.map_eq_some_iff.mp h
    refine .kept ?_
    change s₁.credentials = s.credentials
    rcases (State.cancelNext_cases hnext).1 with rfl | ⟨i, rfl⟩
    · rfl
    · exact s.onHandle_credentials i _
  | activeRequests =>
    cases h
    exact .kept rfl
  | beginUnload drain =>
    cases h
    unfold State.beginUnload
    split <;> exact .kept rfl
  | stepUnload k action =>
    obtain ⟨call, -, h⟩ := Option.bind_eq_some_iff.mp h
    obtain ⟨⟨s₁, pc⟩, hnext, rfl⟩ := Option.map_eq_some_iff.mp h
    exact .kept (State.unloadNext_cases hnext).credentials
  | dropUnload k =>
    obtain ⟨call, -, h⟩ := Option.bind_eq_some_iff.mp h
    split at h
    case h_1 | h_2 =>
      cases h
      exact .kept rfl
    case h_3 => cases h

/-- What is verified on an instance, the instance has done itself, on its own backend. -/
def State.Earned (s : State) : Prop :=
  ∀ capability now backend, s.capabilities capability = .verified now backend →
    backend = s.identity ∧
      ∃ (i : ℕ) (r : Request), s.admitted[i]? = some r ∧ r.Demonstrates capability

/-- A stream that is recorded on an instance is one of its own, if it counts. -/
def OwnStreams (s : State) : Action → Prop
  | .recordGenerationStream true _ =>
    ∃ (i : ℕ) (t : Stream.State), s.admitted[i]? = some (.stream t) ∧
      t.chan.stream.demonstratedGeneration = true
  | _ => True

theorem Effect.demonstrates (h : Effect ext a s s') {i : ℕ} {r : Request}
    {capability : ModelCapability} (hi : s.admitted[i]? = some r)
    (hr : r.Demonstrates capability) :
    ∃ (i : ℕ) (r : Request), s'.admitted[i]? = some r ∧ r.Demonstrates capability := by
  obtain ⟨r', hi', rfl | hmove⟩ := h.onward hi
  · exact ⟨i, r', hi', hr⟩
  · exact ⟨i, r', hi', hmove.demonstrates hr⟩

theorem verify_cases {capabilities : ModelCapabilities} {verified capability : ModelCapability}
    {now now' : ℕ} {backend backend' : Option BackendIdentity}
    (h : capabilities.verify verified now backend capability = .verified now' backend') :
    (capability = verified ∧ backend' = backend) ∨
      capabilities capability = .verified now' backend' := by
  unfold ModelCapabilities.verify at h
  split at h
  · rename_i hsame
    cases h
    exact .inl ⟨hsame, rfl⟩
  · exact .inr h

theorem step_earned (hreach : Reachable (system ext) s) (hs : s.Earned) (hok : OwnStreams s a)
    (h : step ext s a = some s') : s'.Earned := by
  -- What was earned before is still there.
  have hkept : ∀ {capability now backend}, s.capabilities capability = .verified now backend →
      s'.identity = s.identity → backend = s'.identity ∧
        ∃ (i : ℕ) (r : Request), s'.admitted[i]? = some r ∧ r.Demonstrates capability := by
    intro capability now backend hverified hidentity
    obtain ⟨hbackend, i, r, hi, hr⟩ := hs capability now backend hverified
    exact ⟨hbackend.trans hidentity.symm, (step_effect h).demonstrates hi hr⟩
  intro capability now' backend hverified
  cases step_verifies h with
  | kept hcredentials =>
    obtain ⟨hidentity, hcapabilities⟩ := Prod.mk.inj hcredentials
    rw [hcapabilities] at hverified
    exact hkept hverified hidentity
  | @whole i now w result hi hpc hnew =>
    subst hnew
    rcases verify_cases hverified with ⟨rfl, rfl⟩ | hbefore
    · have hfulfilled := reachable_fulfilled hreach i _ hi
      exact ⟨rfl, i, _, Slots.get_set_self hi _, demonstrates_verified hpc hfulfilled⟩
    · exact hkept hbefore rfl
  | @stream now ha hnew =>
    subst ha hnew
    rcases verify_cases hverified with ⟨rfl, rfl⟩ | hbefore
    · obtain ⟨i, t, hi, hd⟩ := hok
      exact ⟨rfl, i, _, hi, demonstrated_of_stream (reachable_valid hreach i _ hi) hd⟩
    · exact hkept hbefore rfl

end LoadedModel

/-! ### The models of a runtime -/

theorem indicatedByMetadata_unverified (architecture : Option String)
    (embeddingLength : Option UInt64) (hasChatTemplate : Bool) (capability : ModelCapability)
    (now : ℕ) (backend : Option BackendIdentity) :
    indicatedByMetadata architecture embeddingLength hasChatTemplate capability ≠
      .verified now backend := by
  unfold indicatedByMetadata
  cases capability with
  | textGeneration | embeddings =>
    intro h
    dsimp only at h
    split at h <;> cases h
  | _ =>
    intro h
    cases h

variable {s s' : RuntimeState}

theorem act_length {m : ℕ} {b : LoadedModel.Action} (h : s.act ext m b = some s') :
    s'.models.length = s.models.length := by
  obtain ⟨model, loaded, -, -, rfl⟩ := RuntimeState.act_cases h
  exact List.length_set

/-- There are more models only after a load has built one. -/
theorem LoadStep.built_of_longer {j : ℕ} {call : LoadCall} {b : LoadAction}
    (h : LoadStep ext s j call b s') (hlonger : s.models.length < s'.models.length) :
    ∃ bytes, s'.models = s.models ++ [⟨call.build bytes, false⟩] := by
  cases h with
  | @built bytes hpc => exact ⟨bytes, rfl⟩
  | @fulfilled m model claim id ledger hpc hm hclaim hfulfil =>
    have hmodels : ({ s with ledger := ledger }.publish m).models = s.models.set m _ :=
      RuntimeState.publish_models hm
    simp only [RuntimeState.setLoad, hmodels, List.length_set] at hlonger
    exact absurd hlonger (Nat.lt_irrefl _)
  | teardown hpc hact | abandoned hpc hact =>
    simp only [RuntimeState.setLoad, act_length hact] at hlonger
    exact absurd hlonger (Nat.lt_irrefl _)
  | _ => exact absurd hlonger (Nat.lt_irrefl _)

theorem UnloadingStep.length {j : ℕ} {call : Unloading} {b : UnloadingAction}
    (h : UnloadingStep ext s j call b s') : s'.models.length = s.models.length := by
  cases h with
  | @begun m s₁ hmodel hpc hact =>
    have hlength : s₁.models.length = s.models.length := act_length hact
    exact hlength
  | @dropped m k s₁ hmodel hpc hact =>
    have hlength : s₁.models.length = s.models.length := act_length hact
    exact hlength
  | _ => rfl

theorem step_built {a : RuntimeAction} (h : (runtimeSystem ext).step s a = some s')
    {loaded : LoadedModel.State} (hmodels : s'.models = s.models ++ [⟨loaded, false⟩]) :
    ∃ (call : LoadCall) (bytes : List UInt8), loaded = call.build bytes := by
  have hlength : s'.models.length = s.models.length + 1 := by
    rw [hmodels, List.length_append, List.length_singleton]
  have hlonger : s.models.length < s'.models.length := hlength ▸ Nat.lt_succ_self _
  cases step_cases h with
  | load | unloadWithin => exact absurd hlonger (Nat.lt_irrefl _)
  | ofLoad hj hstep =>
    obtain ⟨bytes, hbuilt⟩ := hstep.built_of_longer hlonger
    rw [hmodels] at hbuilt
    have hsame := List.singleton_inj.mp (List.append_cancel_left hbuilt)
    exact ⟨_, bytes, congrArg Model.loaded hsame⟩
  | ofUnload hj hstep => exact absurd hstep.length (Nat.ne_of_gt hlonger)
  | ofModel htaken hfree hact => exact absurd (act_length hact) (Nat.ne_of_gt hlonger)

/-- A stream is recorded on the instance it is of, or has demonstrated nothing. -/
def recordsOwn (s : RuntimeState) : RuntimeAction → Bool
  | .recordGenerationStream m source request _ =>
    source = m || s.demonstrated source request ≠ some true
  | _ => true

def RecordsOwn (s : RuntimeState) (a : RuntimeAction) : Prop := recordsOwn s a = true

theorem RuntimeState.demonstrated_own {m request : ℕ} {model : Model}
    (h : s.demonstrated m request = some true) (hm : s.models[m]? = some model) :
    ∃ (i : ℕ) (t : Stream.State), model.loaded.admitted[i]? = some (.stream t) ∧
      t.chan.stream.demonstratedGeneration = true := by
  obtain ⟨x, hx, hstream⟩ := Option.bind_eq_some_iff.mp h
  obtain rfl : model = x := Option.some.inj (hm.symm.trans hx)
  split at hstream
  · rename_i t hi
    split at hstream
    · exact ⟨request, t, hi, Option.some.inj hstream⟩
    · cases hstream
  · cases hstream

theorem taken_record {a : RuntimeAction} {m now : ℕ} {d : Bool}
    (h : s.taken a = some (m, .recordGenerationStream d now)) :
    (∃ source request, a = .recordGenerationStream m source request now ∧
      s.demonstrated source request = some d) ∨
    a = .onModel m (.recordGenerationStream d now) := by
  unfold RuntimeState.taken at h
  split at h
  case h_1 =>
    obtain ⟨call, -, h⟩ := Option.bind_eq_some_iff.mp h
    split at h <;> cases h
  case h_2 =>
    obtain ⟨call, -, h⟩ := Option.bind_eq_some_iff.mp h
    split at h <;> cases h
  case h_3 =>
    obtain ⟨call, -, h⟩ := Option.bind_eq_some_iff.mp h
    obtain ⟨n, -, h⟩ := Option.map_eq_some_iff.mp h
    cases h
  case h_4 =>
    obtain ⟨call, -, h⟩ := Option.bind_eq_some_iff.mp h
    split at h
    · obtain ⟨n, -, h⟩ := Option.map_eq_some_iff.mp h
      cases h
    · cases h
  case h_5 =>
    cases h
    exact .inr rfl
  case h_6 =>
    obtain ⟨d', hd, h⟩ := Option.map_eq_some_iff.mp h
    cases h
    exact .inl ⟨_, _, rfl, hd⟩
  case h_7 => cases h

theorem ownStreams_of_taken {a : RuntimeAction} {m : ℕ} {b : LoadedModel.Action} {model : Model}
    (hok : RecordsOwn s a) (h : (runtimeSystem ext).step s a = some s')
    (htaken : s.taken a = some (m, b)) (hm : s.models[m]? = some model) :
    LoadedModel.OwnStreams model.loaded b := by
  unfold LoadedModel.OwnStreams
  split
  · rcases taken_record htaken with ⟨source, request, rfl, hd⟩ | rfl
    · have hown : source = m := by simpa [RecordsOwn, recordsOwn, hd] using hok
      subst hown
      exact RuntimeState.demonstrated_own hd hm
    · -- Callers do not reach the model's own record.
      obtain ⟨x, -, h⟩ := Option.bind_eq_some_iff.mp h
      cases h
  · trivial

/-- In the runs every step of which meets `ok`, a capability is verified on an instance only
by a request of its own. -/
def VerifiedByOwn (ext : Externals) (ok : RuntimeState → RuntimeAction → Prop) : Prop :=
  ∀ s, ReachableWhile (runtimeSystem ext) ok s →
    ∀ (m : ℕ) (model : Model), s.models[m]? = some model → model.loaded.Earned

theorem verifiedByOwn_recordsOwn (ext : Externals) : VerifiedByOwn ext RecordsOwn := by
  intro s hs
  induction hs with
  | init hi =>
    obtain ⟨limits, rfl⟩ := hi
    intro m model hm
    simp [RuntimeState.withLimits] at hm
  | @step s s' a hreach hok hst ih =>
    intro m model' hm'
    cases step_models hst with
    | same hmodels =>
      rw [hmodels] at hm'
      exact ih m model' hm'
    | built hnew hmodels =>
      obtain ⟨call, bytes, rfl⟩ := step_built hst hmodels
      rw [hmodels] at hm'
      rcases Slots.get_push_cases hm' with ⟨-, rfl⟩ | hm
      · intro capability now backend hverified
        exact absurd hverified (indicatedByMetadata_unverified _ _ _ capability now backend)
      · exact ih m model' hm
    | acted htaken hx hstep hmodels =>
      rw [hmodels] at hm'
      rcases Slots.get_set_cases hm' with ⟨rfl, rfl⟩ | ⟨-, hm⟩
      · have hown := ownStreams_of_taken hok hst htaken hx
        exact LoadedModel.step_earned (model_reachable hreach.reachable hx) (ih _ _ hx) hown hstep
      · exact ih m model' hm
    | published footprint hx hmodels hentry =>
      have hearned := ih _ _ hx
      rw [hmodels] at hm'
      rcases Slots.get_set_cases hm' with ⟨rfl, rfl⟩ | ⟨-, hm⟩
      · exact hearned
      · exact ih m model' hm

/-! Two instances; the first completes a stream. -/

def answering : Externals where
  decode _ := .ok ⟨[⟨"x", some "stop"⟩], none⟩
  decodeError _ := none

def sampleEvent : List UInt8 := [0x64, 0x61, 0x74, 0x61, 0x3a, 0x78, 0x0a, 0x0a]

def sampleGeneration : List Stream.Action :=
  [.task .run, .task .pollToken, .task .pollClosed, .task (.pollWork (.connected (.ok ()))),
    .task .pollToken, .task .pollClosed, .task (.pollWork (.handshaken (.ok ()))),
    .task (.built (.ok ())), .task .pollToken, .task .pollClosed,
    .task (.pollWork (.answered (.ok 200))), .task .pollToken, .task .pollClosed,
    .task (.pollWork (.frame (some (.ok (some sampleEvent))))), .task .run, .task .send,
    .task .run, .task .pollToken, .task .pollClosed, .task (.pollWork (.frame none)), .task .run,
    .task .run, .task .send, .next, .next, .next]

def streamed : List RuntimeAction :=
  .load "a" :: .load "b" :: (untilLoaded 0 4 [7] ++ untilLoaded 1 4 [9]) ++
    .onModel 0 (.generateStream ⟨.continuation "a", .default⟩ (.ok [])) ::
      .onModel 0 (.request 0 .startGeneration) ::
        sampleGeneration.map fun a => .onModel 0 (.request 0 (.stream a))

theorem verifiedByOwn_streamed :
    ∃ s model, ReachableWhile (runtimeSystem answering) RecordsOwn s ∧
      s.models[0]? = some model ∧
      model.loaded.capabilities .textGeneration = .verified 5 model.loaded.identity ∧
      ∃ (i : ℕ) (r : Request), model.loaded.admitted[i]? = some r ∧
        r.Demonstrates .textGeneration := by
  obtain ⟨s, hrun, model, hm, hverified⟩ :
      ∃ s, (runtimeSystem answering).runWhile recordsOwn (.withLimits ⟨2, none⟩)
          (streamed ++ [.recordGenerationStream 0 0 0 5]) = some s ∧
        ∃ model, s.models[0]? = some model ∧
          model.loaded.capabilities .textGeneration = .verified 5 model.loaded.identity :=
    ⟨_, rfl, _, rfl, rfl⟩
  have hs : ReachableWhile (runtimeSystem answering) RecordsOwn s :=
    reachableWhile_of_run (fun _ _ h => h) (.init ⟨_, rfl⟩) hrun
  exact ⟨s, model, hs, hm, hverified, (verifiedByOwn_recordsOwn _ s hs 0 model hm _ _ _ hverified).2⟩

/-- The first instance's stream is recorded on the second, which has admitted nothing. -/
theorem verifiedByOwn_borrowed : ¬ ∀ ext, VerifiedByOwn ext fun _ _ => True := by
  intro hclaim
  obtain ⟨s, hrun, model, hm, hverified, hnone⟩ :
      ∃ s, (runtimeSystem answering).run (.withLimits ⟨2, none⟩)
          (streamed ++ [.recordGenerationStream 1 0 0 5]) = some s ∧
        ∃ model, s.models[1]? = some model ∧
          model.loaded.capabilities .textGeneration = .verified 5 model.loaded.identity ∧
          model.loaded.admitted = [] :=
    ⟨_, rfl, _, rfl, rfl, rfl⟩
  have hs := reachable_of_withLimits hrun
  obtain ⟨-, i, r, hi, -⟩ := hclaim answering s hs 1 model hm _ _ _ hverified
  rw [hnone] at hi
  cases hi

end MehoyRuntime.Runtime
