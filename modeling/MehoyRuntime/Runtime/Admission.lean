import MehoyRuntime.Lib.Word
import MehoyRuntime.Stream.Outcome
import MehoyRuntime.Runtime.Teardown

/-!
# Admission and the table of active requests

What one step can do to the requests of an instance and to its `active` table is one of
five effects, and what it can do to one request is a move. Every invariant about requests
is derived from these.
-/

namespace MehoyRuntime.Runtime.LoadedModel
open MehoyRuntime.Core MehoyRuntime.Stream TransitionSystem KeyedTable
variable {ext : Externals} {a : Action} {s s' : State}

/-! ### Effects -/

def Fresh (handle : RequestHandle) (r : Request) : Prop :=
  (∃ request verify, r = .whole ⟨request, verify, handle, none, .admitted⟩) ∨
  ∃ body, r = .accepted handle body

/-- What a step can do to one request. -/
inductive Move (ext : Externals) (late : Bool) : Request → Request → Prop
  | step {r r'} (a : RequestAction) : r.step ext late a = some r' → Move ext late r r'
  | told {r} (cause : CancellationCause) :
      Move ext late r (r.withHandle (r.handle.requestCancellation cause).2)
  | verified {w result} : w.pc = .verifying result →
      Move ext late (.whole w) (.whole { w with pc := .returned (.ok result) })

def Action.begins : Action → Bool
  | .embed _ _ => true
  | .generateText asked _ | .generateStream asked _ => (State.validParameters asked).isOk
  | _ => false

def RecordsFailure (s : State) (a : Action) : Prop :=
  ∃ k call, a = .stepUnload k .finish ∧ s.unloads[k]? = some call ∧ call.executing = true ∧
    (call.pc = .missing ∨ ∃ err unsettled, call.pc = .finishing (.error err) unsettled)

/-- What a step can do to the requests and the table of an instance. -/
inductive Effect (ext : Externals) (a : Action) (s s' : State) : Prop
  | idle (hadm : s'.admitted = s.admitted) (hids : s'.requests = s.requests)
      (hact : s'.active = s.active) (hphase : s'.phase = s.phase ∨ s'.phase = .unloading)
  | pruned (hadm : s'.admitted = s.admitted) (hids : s'.requests = s.requests)
      (hact : s'.active = s.retained) (hphase : s'.phase = s.phase)
  | cleared (hadm : s'.admitted = s.admitted) (hids : s'.requests = s.requests)
      (hact : s'.active = ∅)
      (hphase : s'.phase = .unloaded ∨ (s'.phase = .unloadFailed ∧ RecordsFailure s a))
  | admitted {r : Request} (hbegins : a.begins = true) (hfresh : Fresh (.new s.requests.request.1) r)
      (hserving : s.phase = .serving) (hadm : s'.admitted = s.admitted ++ [r])
      (hids : s'.requests = s.requests.request.2)
      (hact : s'.active = s.retained.insert s.requests.request.1 s.admitted.length)
      (hphase : s'.phase = s.phase)
  | moved {i : ℕ} {r r' : Request} (hi : s.admitted[i]? = some r)
      (hmove : Move ext (0 < s.stopCalls) r r') (hadm : s'.admitted = s.admitted.set i r')
      (hdrop : r'.dropped = true → r.dropped = true ∨ a = .request i (.whole .drop))
      (hids : s'.requests = s.requests) (hact : s'.active = s.active)
      (hphase : s'.phase = s.phase)

theorem begin_effect (s : State) {valid : Except LoadError Unit}
    (hbegins : valid = .ok () → a.begins = true) {request : RequestHandle → Request}
    (hfresh : ∀ handle, Fresh handle (request handle)) :
    Effect ext a s (s.begin valid request) := by
  unfold State.begin
  split
  · exact .idle rfl rfl rfl (.inl rfl)
  · split
    · exact .idle rfl rfl rfl (.inl rfl)
    · rename_i hadmit
      unfold State.admitRequest at hadmit
      split at hadmit
      · cases hadmit
      · rename_i hserving
        split at hadmit <;> cases hadmit
        exact .admitted (hbegins rfl) (hfresh _) (not_not.mp hserving) rfl rfl rfl rfl

theorem tell_effect (s : State) (i : ℕ) (cause : CancellationCause) :
    Effect ext a s (s.tell i cause) := by
  unfold State.tell State.onHandle
  cases hi : s.admitted[i]? with
  | none => exact .idle rfl rfl rfl (.inl rfl)
  | some r =>
    refine .moved hi (.told cause) rfl (fun hd => .inl ?_) rfl rfl rfl
    rwa [Request.withHandle_dropped] at hd

theorem Effect.calls (h : Effect ext a s s') {cancels : List CancelCall}
    {unloads : List UnloadCall} {stopCalls : ℕ} {stopResults : List (Except BackendError Unit)} :
    Effect ext a s { s' with cancels, unloads, stopCalls, stopResults } := by
  cases h with
  | idle hadm hids hact hphase => exact .idle hadm hids hact hphase
  | pruned hadm hids hact hphase => exact .pruned hadm hids hact hphase
  | cleared hadm hids hact hphase => exact .cleared hadm hids hact hphase
  | admitted hbegins hfresh hserving hadm hids hact hphase =>
    exact .admitted hbegins hfresh hserving hadm hids hact hphase
  | moved hi hmove hadm hdrop hids hact hphase =>
    exact .moved hi hmove hadm hdrop hids hact hphase

theorem cancelNext_effect {call call' : CancelCall} {s₁ : State}
    (h : s.cancelNext call = some (s₁, call')) : Effect ext a s s₁ := by
  rcases (State.cancelNext_cases h).1 with rfl | ⟨i, rfl⟩
  · exact .idle rfl rfl rfl (.inl rfl)
  · exact tell_effect s i _

theorem UnloadStep.effect {k : ℕ} {call : UnloadCall} {action : UnloadAction} {s₁ : State}
    {pc : UnloadPc} (h : UnloadStep s call action s₁ pc) (hk : s.unloads[k]? = some call) :
    Effect ext (.stepUnload k action) s s₁ := by
  have hex := h.executing
  cases h with
  | missing hpc => exact .cleared rfl rfl rfl (.inr ⟨rfl, k, call, rfl, hk, hex, .inl hpc⟩)
  | told hpc => exact tell_effect s _ _
  | @finished result unsettled hpc =>
    cases result with
    | ok => exact .cleared rfl rfl rfl (.inl rfl)
    | error err =>
      exact .cleared rfl rfl rfl (.inr ⟨rfl, k, call, rfl, hk, hex, .inr ⟨err, unsettled, hpc⟩⟩)
  | _ => exact .idle rfl rfl rfl (.inl rfl)

theorem whole_step_dropped {late : Bool} {w w' : Whole} {a : WholeAction}
    (h : w.step late w.pc a = some w') (hd : (Request.whole w').dropped = true) : a = .drop := by
  cases Whole.step_cases h with
  | dropped hpc => rfl
  | arrived hpc hnone =>
    simp only [Request.dropped, hpc] at hd
    cases hd
  | @settled sent hpc =>
    cases hresult : (conclude w.request sent).2 with
    | error err =>
      simp only [Whole.resultPc, hresult] at hd
      cases hd
    | ok result =>
      simp only [Whole.resultPc, hresult] at hd
      cases hverify : w.verify <;> simp only [hverify] at hd <;> cases hd
  | _ => cases hd

theorem request_step_dropped {late : Bool} {r r' : Request} {a : RequestAction}
    (h : r.step ext late a = some r') (hd : r'.dropped = true) : a = .whole .drop := by
  cases r with
  | whole w =>
    cases a with
    | whole action =>
      obtain ⟨w', hw, rfl⟩ := Option.map_eq_some_iff.mp h
      rw [whole_step_dropped hw hd]
    | _ => cases h
  | accepted handle body =>
    cases a with
    | startGeneration =>
      cases h
      cases hd
    | _ => cases h
  | stream t =>
    cases a with
    | stream action =>
      obtain ⟨t', -, rfl⟩ := Option.map_eq_some_iff.mp h
      cases hd
    | _ => cases h

theorem step_effect (h : step ext s a = some s') : Effect ext a s s' := by
  cases step_cases h with
  | closed hserving => exact .idle rfl rfl rfl (.inr rfl)
  | answered hp | dropped hk => exact .idle rfl rfl rfl (.inl rfl)
  | moved hk hnext => exact (hnext.effect hk).calls
  | kept hu hcontrol =>
    cases a with
    | embed request verify =>
      cases h
      exact begin_effect s (fun _ => rfl) fun handle => .inl ⟨_, _, rfl⟩
    | generateText request verify =>
      cases h
      exact begin_effect s (fun hvalid => by rw [Action.begins, hvalid]; rfl)
        fun handle => .inl ⟨_, _, rfl⟩
    | generateStream request body =>
      cases h
      exact begin_effect s (fun hvalid => by rw [Action.begins, hvalid]; rfl)
        fun handle => .inr ⟨_, rfl⟩
    | request i action =>
      obtain ⟨r, hi, h⟩ := Option.bind_eq_some_iff.mp h
      obtain ⟨r', hr, rfl⟩ := Option.map_eq_some_iff.mp h
      refine .moved hi (.step action hr) rfl (fun hd => ?_) rfl rfl rfl
      obtain rfl := request_step_dropped hr hd
      exact .inr rfl
    | recordVerified i now =>
      simp only [step, State.recordVerified] at h
      split at h
      · rename_i w hi
        split at h <;> cases h
        rename_i result hpc
        exact .moved hi (.verified hpc) rfl (fun hd => by cases hd) rfl rfl rfl
      · cases h
    | recordGenerationStream demonstrated now =>
      cases h
      unfold State.recordGenerationStream
      split <;> exact .idle rfl rfl rfl (.inl rfl)
    | cancel requestId =>
      cases h
      unfold State.cancel
      dsimp only
      split <;> exact .pruned rfl rfl rfl rfl
    | stepCancel k =>
      obtain ⟨call, -, h⟩ := Option.bind_eq_some_iff.mp h
      obtain ⟨⟨s₁, call'⟩, hnext, rfl⟩ := Option.map_eq_some_iff.mp h
      exact (cancelNext_effect hnext).calls
    | activeRequests =>
      cases h
      exact .pruned rfl rfl rfl rfl
    | beginUnload | stepUnload | dropUnload => cases hu

/-! ### Requests go on -/

theorem whole_step_later {late : Bool} {w w' : Whole} {a : WholeAction}
    (h : w.step late w.pc a = some w') : w.handle.Later w'.handle := by
  cases Whole.step_cases h with
  | running hpc => exact RequestHandle.later_markRunning w.handle
  | stopped hpc | settled hpc => exact RequestHandle.later_finish w.handle _
  | _ => exact .refl _

theorem Move.later {late : Bool} {r r' : Request} (h : Move ext late r r') :
    r.handle.Later r'.handle := by
  cases h with
  | step a ha =>
    cases r with
    | whole w =>
      cases a with
      | whole action =>
        obtain ⟨w', hw, rfl⟩ := Option.map_eq_some_iff.mp ha
        exact whole_step_later hw
      | _ => cases ha
    | accepted handle body =>
      cases a with
      | startGeneration =>
        cases ha
        exact .refl _
      | _ => cases ha
    | stream t =>
      cases a with
      | stream action =>
        obtain ⟨t', ht, rfl⟩ := Option.map_eq_some_iff.mp ha
        exact step_later ht
      | _ => cases ha
  | told cause =>
    rw [Request.withHandle_handle]
    exact RequestHandle.later_requestCancellation r.handle cause
  | verified hpc => exact .refl _

theorem Effect.onward (h : Effect ext a s s') {i : ℕ} {r : Request} (hi : s.admitted[i]? = some r) :
    ∃ r', s'.admitted[i]? = some r' ∧ (r' = r ∨ Move ext (0 < s.stopCalls) r r') := by
  cases h with
  | idle hadm => exact ⟨r, by rw [hadm, hi], .inl rfl⟩
  | pruned hadm => exact ⟨r, by rw [hadm, hi], .inl rfl⟩
  | cleared hadm => exact ⟨r, by rw [hadm, hi], .inl rfl⟩
  | admitted _ _ _ hadm => exact ⟨r, by rw [hadm]; exact Slots.get_push_of_get hi _, .inl rfl⟩
  | @moved j x x' hj hmove hadm =>
    rcases eq_or_ne i j with rfl | hne
    · obtain rfl : r = x := Option.some.inj (hi.symm.trans hj)
      exact ⟨x', by rw [hadm]; exact Slots.get_set_self hj x', .inr hmove⟩
    · exact ⟨r, by rw [hadm, List.getElem?_set_ne hne.symm, hi], .inl rfl⟩

theorem Effect.later (h : Effect ext a s s') {i : ℕ} {r : Request} (hi : s.admitted[i]? = some r) :
    ∃ r', s'.admitted[i]? = some r' ∧ r.handle.Later r'.handle := by
  obtain ⟨r', hi', rfl | hmove⟩ := h.onward hi
  · exact ⟨r', hi', .refl _⟩
  · exact ⟨r', hi', hmove.later⟩

theorem Effect.earlier (h : Effect ext a s s') {i : ℕ} {r' : Request}
    (hi : s'.admitted[i]? = some r') :
    (∃ r, s.admitted[i]? = some r ∧ (r = r' ∨ Move ext (0 < s.stopCalls) r r')) ∨
    (i = s.admitted.length ∧ s.phase = .serving ∧ Fresh (.new s.requests.request.1) r') := by
  cases h with
  | idle hadm => exact .inl ⟨r', by rw [← hadm, hi], .inl rfl⟩
  | pruned hadm => exact .inl ⟨r', by rw [← hadm, hi], .inl rfl⟩
  | cleared hadm => exact .inl ⟨r', by rw [← hadm, hi], .inl rfl⟩
  | admitted _ hfresh hserving hadm =>
    rw [hadm] at hi
    rcases Slots.get_push_cases hi with ⟨rfl, rfl⟩ | hi
    · exact .inr ⟨rfl, hserving, hfresh⟩
    · exact .inl ⟨r', hi, .inl rfl⟩
  | moved hj hmove hadm hdrop =>
    rw [hadm] at hi
    rcases Slots.get_set_cases hi with ⟨rfl, rfl⟩ | ⟨-, hi⟩
    · exact .inl ⟨_, hj, .inr hmove⟩
    · exact .inl ⟨r', hi, .inl rfl⟩

theorem Effect.length (h : Effect ext a s s') :
    s'.admitted.length = s.admitted.length ∨
    (s.phase = .serving ∧ s'.admitted.length = s.admitted.length + 1) := by
  cases h with
  | idle hadm => exact .inl (by rw [hadm])
  | pruned hadm => exact .inl (by rw [hadm])
  | cleared hadm => exact .inl (by rw [hadm])
  | admitted _ _ hserving hadm => exact .inr ⟨hserving, by rw [hadm]; simp⟩
  | moved _ _ hadm => exact .inl (by rw [hadm]; simp)

end MehoyRuntime.Runtime.LoadedModel
