import MehoyRuntime.Runtime.Causes

/-!
# Why a request was stopped

The cause on a request's token says what happened in the run: somebody asked for this request
to be cancelled, its instance was being unloaded, its idle budget ran out or its consumer went
away. Where a step writes the token is said once for a stream, and once for an instance.
-/

namespace MehoyRuntime.Stream
open MehoyRuntime.Core TransitionSystem
variable {ext : Externals} {t t' : State}

namespace State

/-! ### The consumer of a stream -/

theorem consumeSink_receiver (t : State) (pc : Pc) :
    (t.consumeSink pc).chan.receiverAlive = t.chan.receiverAlive := by
  unfold consumeSink
  split <;> rfl

theorem interrupted_receiver (t : State) (point : AwaitPoint) (cause : CancellationCause) :
    (t.interrupted point cause).chan.receiverAlive = t.chan.receiverAlive := by
  cases point with
  | reading => rfl
  | connecting | handshaking | sending | collecting => exact t.release.consumeSink_receiver _

theorem close_receiver (t : State) (outcome : Except Interruption EndOfBody) :
    (t.close outcome).chan.receiverAlive = t.chan.receiverAlive := by
  unfold close
  split
  · exact t.release.consumeSink_receiver _
  · exact t.release.consumeSink_receiver _
  · dsimp only
    split <;> exact t.release.consumeSink_receiver _

theorem resumed_receiver {point : AwaitPoint} {outcome : WorkOutcome}
    (h : t.resumed ext point outcome = some t') :
    t'.chan.receiverAlive = t.chan.receiverAlive := by
  unfold resumed at h
  split at h <;> cases h
  case h_2 | h_4 | h_6 => rfl
  case h_9 =>
    unfold framed
    split <;> try rfl
    split <;> rfl
  all_goals exact t.release.consumeSink_receiver _

theorem handlePayloads_receiver (t : State) (payloads : List String) :
    (t.handlePayloads ext payloads).chan.receiverAlive = t.chan.receiverAlive := by
  unfold handlePayloads
  split
  · rfl
  · split <;> try rfl
    dsimp only
    split <;> rfl

theorem send_receiver {c c' : Channel} {item : StreamItem} {alive : Bool}
    (h : c.send item = some (alive, c')) : c'.receiverAlive = c.receiverAlive := by
  rcases Channel.send_cases h with ⟨-, -, rfl⟩ | ⟨-, -, -, rfl⟩ <;> rfl

theorem taskStep_receiver {a : TaskAction} (h : t.taskStep ext t.pc a = some t') :
    t'.chan.receiverAlive = t.chan.receiverAlive := by
  cases taskStep_cases h with
  | started | untold | held | pending | built | cancelled | finished => rfl
  | unencoded => exact t.consumeSink_receiver _
  | unbuilt => exact t.release.consumeSink_receiver _
  | told | abandoned => exact t.interrupted_receiver _ _
  | elapsed => exact interrupted_receiver _ _ _
  | resumed _ hresumed => exact resumed_receiver hresumed
  | handled => exact t.handlePayloads_receiver _
  | closed => exact t.close_receiver _
  | emitted _ hsend | unheard _ hsend => exact send_receiver hsend
  | announced _ hsend =>
    have hsame := send_receiver hsend
    exact hsame

/-- Only the consumer itself goes away. -/
theorem step_receiver {a : Action} (h : step ext t a = some t')
    (hgone : t'.chan.receiverAlive = false) : t.chan.receiverAlive = false ∨ a = .dropStream := by
  cases step_cases h with
  | task htask => exact .inl ((taskStep_receiver htask).symm.trans hgone)
  | dropped => exact .inr rfl
  | aborted | told | finished | read | gone => exact .inl hgone

/-! ### What the task writes on the token -/

theorem resumed_cause {point : AwaitPoint} {outcome : WorkOutcome}
    (h : t.resumed ext point outcome = some t') :
    t'.chan.handle.cancellationCause = t.chan.handle.cancellationCause := by
  unfold resumed at h
  split at h <;> cases h
  case h_2 | h_4 => rfl
  case h_6 => exact RequestHandle.markRunning_cause _
  case h_9 => rw [t.framed_handle]
  all_goals
    have hsame := t.release.consumeSink_handle
    simp only [fail, hsame]
    rfl

/-- Where a step of the task leaves another cause on the token than there was. -/
inductive Writes (t : State) : TaskAction → Option CancellationCause → Prop
  | expired : Writes t .pollElapsed (some (t.chan.handle.cancellationCause.getD .streamIdleTimeout))
  | told {a cause} (hpc : t.pc = .cancelling cause) :
      Writes t a (t.chan.handle.requestCancellation cause).2.cancellationCause

theorem taskStep_cause {a : TaskAction} (h : t.taskStep ext t.pc a = some t') :
    t'.chan.handle.cancellationCause = t.chan.handle.cancellationCause ∨
      Writes t a t'.chan.handle.cancellationCause := by
  cases taskStep_cases h with
  | started | untold | held | pending | built => exact .inl rfl
  | unencoded => exact .inl (by rw [fail, t.consumeSink_handle])
  | unbuilt => exact .inl (by rw [fail, t.release.consumeSink_handle]; rfl)
  | told | abandoned => exact .inl (by rw [t.interrupted_handle])
  | resumed _ hresumed => exact .inl (resumed_cause hresumed)
  | elapsed =>
    refine .inr ?_
    rw [elapsed, interrupted_handle]
    have hcause := RequestHandle.cancelToken_cause t.chan.handle .streamIdleTimeout
    change Writes t .pollElapsed (t.chan.handle.cancelToken .streamIdleTimeout).cancellationCause
    rw [hcause]
    exact .expired
  | handled => exact .inl (by rw [t.handlePayloads_handle])
  | emitted _ hsend | unheard _ hsend =>
    refine .inl ?_
    have hsame := send_handle hsend
    simp only [hsame]
  | closed => exact .inl (by rw [t.close_handle])
  | cancelled hpc => exact .inr (.told hpc)
  | finished => exact .inl (RequestHandle.finish_cause _ _)
  | @announced item alive chan _ hsend =>
    refine .inl ?_
    have hsame := send_handle hsend
    rcases dropSink_handle chan with hdrop | hdrop
    · simp only [ended, hdrop, hsame]
    · simp only [ended, hdrop, hsame, RequestHandle.finish_cause]

/-! ### What the task acts on -/

/-- A cause the task acts on is on the token, or is that nobody listens any more. -/
def Heeds (t : State) : Prop :=
  ∀ cause, t.pc.told = some cause →
    t.chan.handle.cancellationCause = some cause ∨ cause = .consumerGone

theorem heeds_of_untold (h : t.pc.told = none) : t.Heeds := by
  intro cause hcause
  rw [h] at hcause
  cases hcause

theorem consumeSink_told (t : State) (pc : Pc) :
    (t.consumeSink pc).pc.told = none ∨ (t.consumeSink pc).pc = pc := by
  unfold consumeSink
  split
  · exact .inl rfl
  · exact .inr rfl

theorem fail_untold (t : State) (error : GenerationStreamError) : (t.fail error).pc.told = none := by
  unfold fail
  rcases t.consumeSink_told (.finishing .failed (.error error)) with h | h
  · exact h
  · rw [h]
    rfl

theorem interrupted_heeds {point : AwaitPoint} {cause : CancellationCause}
    (hcause : t.chan.handle.cancellationCause = some cause ∨ cause = .consumerGone) :
    (t.interrupted point cause).Heeds := by
  intro other hother
  rw [t.interrupted_handle]
  have hsame : other = cause := by
    cases point with
    | reading => exact (Option.some.inj hother).symm
    | connecting | handshaking | sending | collecting =>
      rcases t.release.consumeSink_told (.cancelling cause) with h | h
      · simp only [interrupted, cancel, h, reduceCtorEq] at hother
      · simp only [interrupted, cancel, h, Pc.told, Option.some.injEq] at hother
        exact hother.symm
  rw [hsame]
  exact hcause

theorem close_heeds {outcome : Except Interruption EndOfBody} (hs : t.Heeds)
    (hpc : t.pc = .closing outcome) : (t.close outcome).Heeds := by
  unfold close
  split
  · rename_i cause
    have hcause := hs cause (by rw [hpc]; rfl)
    intro other hother
    rcases t.release.consumeSink_told (.cancelling cause) with h | h
    · simp only [cancel, h, reduceCtorEq] at hother
    · simp only [cancel, h, Pc.told, Option.some.injEq] at hother
      rw [cancel, t.release.consumeSink_handle, ← hother]
      exact hcause
  · exact heeds_of_untold (t.release.fail_untold _)
  · dsimp only
    split
    · rename_i summary _
      refine heeds_of_untold ?_
      unfold complete
      rcases t.release.consumeSink_told
          (.finishing .completed (.ok (.completed t.release.requestId summary))) with h | h
      · exact h
      · rw [h]
        rfl
    · exact heeds_of_untold (t.release.fail_untold _)

theorem handlePayloads_heeds (t : State) (payloads : List String) :
    (t.handlePayloads ext payloads).Heeds := by
  unfold handlePayloads
  split
  · exact heeds_of_untold rfl
  · split
    · exact heeds_of_untold rfl
    · exact heeds_of_untold rfl
    · exact heeds_of_untold rfl
    · dsimp only
      split
      · exact heeds_of_untold rfl
      · rintro cause ⟨⟩
        exact .inr rfl
      · exact heeds_of_untold rfl

theorem resumed_untold {point : AwaitPoint} {outcome : WorkOutcome}
    (h : t.resumed ext point outcome = some t') : t'.pc.told = none := by
  unfold resumed at h
  split at h <;> cases h
  case h_2 | h_4 | h_6 => rfl
  case h_9 =>
    unfold framed
    split <;> try rfl
    split <;> rfl
  all_goals exact t.release.fail_untold _

theorem taskStep_heeds {a : TaskAction} (hs : t.Heeds) (h : t.taskStep ext t.pc a = some t') :
    t'.Heeds := by
  cases taskStep_cases h with
  | started | untold | held | pending | built | emitted | cancelled | finished | announced =>
    exact heeds_of_untold rfl
  | unencoded => exact heeds_of_untold (t.fail_untold _)
  | unbuilt => exact heeds_of_untold (t.release.fail_untold _)
  | told _ hcause => exact interrupted_heeds (.inl hcause)
  | abandoned => exact interrupted_heeds (.inr rfl)
  | resumed _ hresumed => exact heeds_of_untold (resumed_untold hresumed)
  | elapsed =>
    refine interrupted_heeds (.inl ?_)
    change (t.chan.handle.cancelToken .streamIdleTimeout).cancellationCause =
      some ((t.chan.handle.cancelToken .streamIdleTimeout).cancellationCause.getD .streamIdleTimeout)
    rw [RequestHandle.cancelToken_cause]
    rfl
  | handled => exact t.handlePayloads_heeds _
  | unheard =>
    rintro cause ⟨⟩
    exact .inr rfl
  | closed hpc => exact close_heeds hs hpc

theorem reachable_heeds (h : Reachable (system ext) t) : t.Heeds := by
  induction h with
  | init hi =>
    obtain ⟨handle, body, -, rfl⟩ := hi
    exact heeds_of_untold rfl
  | @step t t' a _ _ hst ih =>
    have hkept (hpc : t'.pc = t.pc) : t'.Heeds := by
      intro cause hcause
      rw [hpc] at hcause
      rcases ih cause hcause with hrecorded | hgone
      · exact .inl ((step_later hst).cause cause hrecorded)
      · exact .inr hgone
    cases step_cases hst with
    | task htask => exact taskStep_heeds ih htask
    | aborted => exact heeds_of_untold rfl
    | told | finished | read | gone | dropped => exact hkept rfl

end State
end MehoyRuntime.Stream

namespace MehoyRuntime.Runtime
open MehoyRuntime.Core MehoyRuntime.Stream TransitionSystem KeyedTable
variable {ext : Externals}

theorem Whole.step_cause {late : Bool} {w w' : Whole} {a : WholeAction}
    (h : w.step late w.pc a = some w') :
    w'.handle.cancellationCause = w.handle.cancellationCause := by
  cases Whole.step_cases h with
  | running => exact RequestHandle.markRunning_cause _
  | stopped | settled => exact RequestHandle.finish_cause _ _
  | arrived | told | answered | waiting | dropped => rfl

/-- The request a call of `cancel` is about, until it returns. -/
def CancelCall.request : CancelCall → Option ℕ
  | .found i | .requesting i | .refused i | .stopping i => some i
  | .returned _ => none

namespace LoadedModel
variable {s s' : State} {a : Action} {i : ℕ} {r' : Request}

/-! ### Who tells a request to stop -/

inductive Teller (s : State) (i : ℕ) : Action → CancellationCause → Prop
  | user {k} (hk : s.cancels[k]? = some (.requesting i)) : Teller s i (.stepCancel k) .user
  | unloading {k call rest} (hk : s.unloads[k]? = some call)
      (hpc : call.pc = .cancelling (i :: rest)) :
      Teller s i (.stepUnload k .tell) .instanceUnloading

/-- Where a request after a step comes from, and who told it. -/
inductive Source (ext : Externals) (s : State) (a : Action) (i : ℕ) (r' : Request) : Prop
  | same (hi : s.admitted[i]? = some r')
  | fresh (hfresh : Fresh (.new s.requests.request.1) r')
  | stepped {b r} (ha : a = .request i b) (hi : s.admitted[i]? = some r)
      (hstep : r.step ext (0 < s.stopCalls) b = some r')
  | told {r cause} (hteller : Teller s i a cause) (hi : s.admitted[i]? = some r)
      (hr : r' = r.withHandle (r.handle.requestCancellation cause).2)
  | verified {w result} (hi : s.admitted[i]? = some (.whole w))
      (hr : r' = .whole { w with pc := .returned (.ok result) })

theorem begin_source {valid : Except LoadError Unit} {request : RequestHandle → Request}
    (hfresh : ∀ handle, Fresh handle (request handle))
    (hi : (s.begin valid request).admitted[i]? = some r') : Source ext s a i r' := by
  unfold State.begin at hi
  split at hi
  · exact .same hi
  · split at hi
    · exact .same hi
    · rename_i hadmit
      unfold State.admitRequest at hadmit
      split at hadmit
      · cases hadmit
      · split at hadmit <;> cases hadmit
        rcases Slots.get_push_cases hi with ⟨-, rfl⟩ | hi
        · exact .fresh (hfresh _)
        · exact .same hi

theorem tell_source {j : ℕ} {cause : CancellationCause} (hteller : Teller s j a cause)
    (hi : (s.tell j cause).admitted[i]? = some r') : Source ext s a i r' := by
  unfold State.tell State.onHandle at hi
  cases hj : s.admitted[j]? with
  | none =>
    rw [hj] at hi
    exact .same hi
  | some r =>
    rw [hj] at hi
    rcases Slots.get_set_cases hi with ⟨rfl, rfl⟩ | ⟨-, hi⟩
    · exact .told hteller hj rfl
    · exact .same hi

theorem cancelNext_source {k : ℕ} {call call' : CancelCall} {t : State}
    (hk : s.cancels[k]? = some call) (h : s.cancelNext call = some (t, call'))
    (hi : t.admitted[i]? = some r') : Source ext s (.stepCancel k) i r' := by
  unfold State.cancelNext at h
  split at h
  · obtain ⟨r, -, h⟩ := Option.map_eq_some_iff.mp h
    split at h <;> cases h <;> exact .same hi
  · obtain ⟨r, -, h⟩ := Option.map_eq_some_iff.mp h
    cases h
    exact tell_source (.user hk) hi
  · obtain ⟨r, -, h⟩ := Option.map_eq_some_iff.mp h
    split at h <;> cases h <;> exact .same hi
  · obtain ⟨r, -, h⟩ := Option.map_eq_some_iff.mp h
    cases h
    exact .same hi
  · cases h

theorem step_source (h : step ext s a = some s') (hi : s'.admitted[i]? = some r') :
    Source ext s a i r' := by
  cases a with
  | embed request verify =>
    cases h
    exact begin_source (fun _ => .inl ⟨_, _, rfl⟩) hi
  | generateText request verify =>
    cases h
    exact begin_source (fun _ => .inl ⟨_, _, rfl⟩) hi
  | generateStream request body =>
    cases h
    exact begin_source (fun _ => .inr ⟨_, rfl⟩) hi
  | request j b =>
    obtain ⟨r, hj, h⟩ := Option.bind_eq_some_iff.mp h
    obtain ⟨x, hx, rfl⟩ := Option.map_eq_some_iff.mp h
    rcases Slots.get_set_cases hi with ⟨rfl, rfl⟩ | ⟨-, hi⟩
    · exact .stepped rfl hj hx
    · exact .same hi
  | recordVerified j now =>
    simp only [step, State.recordVerified] at h
    split at h
    · rename_i w hj
      split at h <;> cases h
      rcases Slots.get_set_cases hi with ⟨rfl, rfl⟩ | ⟨-, hi⟩
      · exact .verified hj rfl
      · exact .same hi
    · cases h
  | recordGenerationStream demonstrated now =>
    cases h
    unfold State.recordGenerationStream at hi
    split at hi <;> exact .same hi
  | cancel requestId =>
    cases h
    unfold State.cancel at hi
    dsimp only at hi
    split at hi <;> exact .same hi
  | stepCancel k =>
    obtain ⟨call, hk, h⟩ := Option.bind_eq_some_iff.mp h
    obtain ⟨⟨t, call'⟩, hnext, rfl⟩ := Option.map_eq_some_iff.mp h
    exact cancelNext_source hk hnext hi
  | activeRequests =>
    cases h
    exact .same hi
  | beginUnload drain =>
    cases h
    unfold State.beginUnload at hi
    split at hi <;> exact .same hi
  | stepUnload k action =>
    obtain ⟨call, hk, h⟩ := Option.bind_eq_some_iff.mp h
    obtain ⟨⟨t, pc⟩, hnext, rfl⟩ := Option.map_eq_some_iff.mp h
    have hi : t.admitted[i]? = some r' := hi
    cases State.unloadNext_cases hnext with
    | told hpc => exact tell_source (.unloading hk hpc) hi
    | _ => exact .same hi
  | dropUnload k =>
    obtain ⟨call, -, h⟩ := Option.bind_eq_some_iff.mp h
    split at h <;> cases h <;> exact .same hi

/-! ### What happened in a run -/

/-- The identifier that each call of `cancel` was made with, the streams whose idle budget ran
out, and those that were dropped by their consumers. -/
structure Happened where
  named : ℕ → Option RequestId
  expired : ℕ → Bool
  gone : ℕ → Bool

def Happened.nothing : Happened := ⟨fun _ => none, fun _ => false, fun _ => false⟩

def Happened.note (happened : Happened) (s : State) : Action → Happened
  | .cancel requestId =>
    { happened with named := Function.update happened.named s.cancels.length (some requestId) }
  | .request i (.stream (.task .pollElapsed)) =>
    { happened with expired := Function.update happened.expired i true }
  | .request i (.stream .dropStream) =>
    { happened with gone := Function.update happened.gone i true }
  | _ => happened

/-- An instance beside what happened to it. -/
def witnessed (ext : Externals) : System (State × Happened) Action :=
  (system ext).recording .nothing Happened.note

/-- A handle is shared with calls of `cancel` and of `unload_within` and with nobody else. -/
def Action.outside : Action → Bool
  | .request _ (.stream (.requestCancellation _)) => true
  | _ => false

def Evidence (s : State) (happened : Happened) (i : ℕ) (id : RequestId) : CancellationCause → Prop
  | .user => ∃ k < s.cancels.length, happened.named k = some id
  | .instanceUnloading => ∃ call ∈ s.unloads, i ∈ call.outstanding
  | .streamIdleTimeout => happened.expired i = true
  | .consumerGone => happened.gone i = true

structure Attributed (s : State) (happened : Happened) : Prop where
  causes : ∀ i r cause, s.admitted[i]? = some r → r.handle.cancellationCause = some cause →
    Evidence s happened i r.handle.id cause
  left : ∀ i t, s.admitted[i]? = some (.stream t) → t.chan.receiverAlive = false →
    happened.gone i = true
  calls : ∀ k call i, s.cancels[k]? = some call → call.request = some i →
    ∃ r, s.admitted[i]? = some r ∧ happened.named k = some r.handle.id
  unloads : ∀ call ∈ s.unloads, ∀ rest, call.pc = .cancelling rest → ∀ i ∈ rest,
    i ∈ call.outstanding

variable {happened : Happened}

theorem note_named (happened : Happened) (s : State) (a : Action) {k : ℕ} (hk : k < s.cancels.length) :
    (happened.note s a).named k = happened.named k := by
  unfold Happened.note
  split
  · exact Function.update_of_ne (Nat.ne_of_lt hk) _ _
  · rfl
  · rfl
  · rfl

theorem note_expired {i : ℕ} (h : happened.expired i = true) :
    (happened.note s a).expired i = true := by
  unfold Happened.note
  split
  · exact h
  · rename_i j
    by_cases hij : i = j
    · simp [hij]
    · simpa [Function.update_of_ne hij] using h
  · exact h
  · exact h

theorem note_gone {i : ℕ} (h : happened.gone i = true) : (happened.note s a).gone i = true := by
  unfold Happened.note
  split
  · exact h
  · exact h
  · rename_i j
    by_cases hij : i = j
    · simp [hij]
    · simpa [Function.update_of_ne hij] using h
  · exact h

/-! ### Calls -/

theorem tell_cancels (s : State) (j : ℕ) (cause : CancellationCause) :
    (s.tell j cause).cancels = s.cancels ∧ (s.tell j cause).unloads = s.unloads := by
  unfold State.tell State.onHandle
  split <;> exact ⟨rfl, rfl⟩

theorem begin_calls (s : State) (valid : Except LoadError Unit) (request : RequestHandle → Request) :
    (s.begin valid request).cancels = s.cancels ∧ (s.begin valid request).unloads = s.unloads := by
  unfold State.begin State.admitRequest
  split
  · exact ⟨rfl, rfl⟩
  · split
    · exact ⟨rfl, rfl⟩
    · rename_i hadmit
      split at hadmit
      · cases hadmit
      · split at hadmit <;> cases hadmit
        exact ⟨rfl, rfl⟩

/-- A call of `cancel` goes on with the request that it has found. -/
theorem cancelNext_request {call call' : CancelCall} {t : State}
    (h : s.cancelNext call = some (t, call')) :
    t.cancels = s.cancels ∧ t.unloads = s.unloads ∧
      ∀ i, call'.request = some i → call.request = some i := by
  unfold State.cancelNext at h
  split at h
  · obtain ⟨r, -, h⟩ := Option.map_eq_some_iff.mp h
    split at h <;> cases h
    · exact ⟨rfl, rfl, fun i hi => by cases hi⟩
    · exact ⟨rfl, rfl, fun i hi => hi⟩
  · obtain ⟨r, -, h⟩ := Option.map_eq_some_iff.mp h
    cases h
    refine ⟨(tell_cancels s _ _).1, (tell_cancels s _ _).2, fun i hi => ?_⟩
    split at hi
    · cases hi
    · exact hi
  · obtain ⟨r, -, h⟩ := Option.map_eq_some_iff.mp h
    split at h <;> cases h
    · exact ⟨rfl, rfl, fun i hi => by cases hi⟩
    · exact ⟨rfl, rfl, fun i hi => hi⟩
  · obtain ⟨r, -, h⟩ := Option.map_eq_some_iff.mp h
    cases h
    exact ⟨rfl, rfl, fun i hi => by cases hi⟩
  · cases h

/-- What a step does to the calls: it makes one, moves one on, or touches none. -/
structure Calls (s s' : State) (happened' : Happened) : Prop where
  grown : s.cancels.length ≤ s'.cancels.length
  cancels : ∀ k call i, s'.cancels[k]? = some call → call.request = some i →
    (∃ before, s.cancels[k]? = some before ∧ before.request = some i) ∨
    ∃ id, happened'.named k = some id ∧ s.active.lookup id = some i
  kept : ∀ call ∈ s.unloads, ∃ call' ∈ s'.unloads, call'.outstanding = call.outstanding
  unloads : ∀ call ∈ s'.unloads, ∀ rest, call.pc = .cancelling rest →
    rest = call.outstanding ∨ ∃ before ∈ s.unloads, ∃ more, before.outstanding = call.outstanding ∧
      before.pc = .cancelling more ∧ rest ⊆ more

theorem calls_same {happened' : Happened} (hcancels : s'.cancels = s.cancels)
    (hunloads : s'.unloads = s.unloads) : Calls s s' happened' := by
  refine ⟨Nat.le_of_eq (by rw [hcancels]), ?_, ?_, ?_⟩
  · intro k call i hk hi
    rw [hcancels] at hk
    exact .inl ⟨call, hk, hi⟩
  · intro call hcall
    exact ⟨call, hunloads ▸ hcall, rfl⟩
  · intro call hcall rest hpc
    rw [hunloads] at hcall
    exact .inr ⟨call, hcall, rest, rfl, hpc, fun _ h => h⟩

theorem calls_cancel (s : State) (requestId : RequestId) {happened' : Happened}
    (hnamed : happened'.named s.cancels.length = some requestId) :
    Calls s (s.cancel requestId) happened' := by
  have hpushed : ∃ call, (s.cancel requestId).cancels = s.cancels ++ [call] ∧
      ∀ i, call.request = some i → s.active.lookup requestId = some i := by
    unfold State.cancel
    dsimp only
    split
    · exact ⟨_, rfl, fun i hi => by cases hi⟩
    · rename_i j hj
      refine ⟨_, rfl, fun i hi => ?_⟩
      obtain rfl : j = i := Option.some.inj hi
      exact (State.lookup_of_retained hj).1
  have hunloads : (s.cancel requestId).unloads = s.unloads := by
    unfold State.cancel
    dsimp only
    split <;> rfl
  obtain ⟨pushed, hpushed, hfound⟩ := hpushed
  have hrest : Calls s { s with unloads := s.unloads } happened' := calls_same rfl rfl
  refine ⟨by rw [hpushed]; simp, ?_, ?_, ?_⟩
  · intro k call i hk hi
    rw [hpushed] at hk
    rcases Slots.get_push_cases hk with ⟨rfl, rfl⟩ | hk
    · exact .inr ⟨requestId, hnamed, hfound i hi⟩
    · exact .inl ⟨call, hk, hi⟩
  · rw [hunloads]
    exact hrest.kept
  · rw [hunloads]
    exact hrest.unloads

theorem calls_stepCancel {k : ℕ} {happened' : Happened} (h : s.stepCancel k = some s') :
    Calls s s' happened' := by
  obtain ⟨call, hk, h⟩ := Option.bind_eq_some_iff.mp h
  obtain ⟨⟨t, call'⟩, hnext, rfl⟩ := Option.map_eq_some_iff.mp h
  obtain ⟨hcancels, hunloads, hrequest⟩ := cancelNext_request hnext
  have hrest : Calls s { s with unloads := s.unloads } happened' := calls_same rfl rfl
  refine ⟨by simp [hcancels], ?_, ?_, ?_⟩
  · intro j other i hj hi
    have hj : (t.cancels.set k call')[j]? = some other := hj
    rw [hcancels] at hj
    rcases Slots.get_set_cases hj with ⟨rfl, rfl⟩ | ⟨-, hj⟩
    · exact .inl ⟨call, hk, hrequest i hi⟩
    · exact .inl ⟨other, hj, hi⟩
  · change ∀ call ∈ s.unloads, ∃ call' ∈ t.unloads, _
    rw [hunloads]
    exact hrest.kept
  · change ∀ call ∈ t.unloads, _
    rw [hunloads]
    exact hrest.unloads

theorem calls_beginUnload (s : State) (drain : ℕ) {happened' : Happened} :
    Calls s (s.beginUnload drain) happened' := by
  have hunloads := s.beginUnload_unloads drain
  have hcancels : (s.beginUnload drain).cancels = s.cancels := by
    unfold State.beginUnload
    split <;> rfl
  have hrest : Calls s { s with unloads := s.unloads } happened' := calls_same rfl rfl
  refine ⟨by rw [hcancels], ?_, ?_, ?_⟩
  · rw [hcancels]
    exact hrest.cancels
  · intro call hcall
    exact ⟨call, by rw [hunloads]; exact List.mem_append_left _ hcall, rfl⟩
  · intro call hcall rest hpc
    rw [hunloads] at hcall
    rcases List.mem_append.mp hcall with hcall | hcall
    · exact hrest.unloads call hcall rest hpc
    · -- The call that closes the instance tells everything it has taken.
      rw [List.mem_singleton.mp hcall] at hpc ⊢
      refine .inl ?_
      unfold State.begunCall at hpc ⊢
      split at hpc
      · cases hpc
      · cases hpc
      · cases hpc
      · simp only [State.closingCall] at hpc ⊢
        split at hpc
        · exact (UnloadPc.cancelling.inj hpc).symm
        · cases hpc

theorem setUnload_calls {k : ℕ} {call : UnloadCall} {pc : UnloadPc} {t : State} {happened' : Happened}
    (hk : s.unloads[k]? = some call) (hcancels : t.cancels = s.cancels)
    (hunloads : t.unloads = s.unloads)
    (hpc : ∀ rest, pc = .cancelling rest → ∃ more, call.pc = .cancelling more ∧ rest ⊆ more) :
    Calls s (t.setUnload k { call with pc }) happened' := by
  refine ⟨Nat.le_of_eq (by rw [State.setUnload, hcancels]), ?_, ?_, ?_⟩
  · intro j other i hj hi
    have hj : t.cancels[j]? = some other := hj
    rw [hcancels] at hj
    exact .inl ⟨other, hj, hi⟩
  · intro other hother
    obtain ⟨j, hj⟩ := List.mem_iff_getElem?.mp hother
    change ∃ call' ∈ t.unloads.set k { call with pc }, _
    rw [hunloads]
    rcases eq_or_ne j k with rfl | hne
    · obtain rfl : call = other := Option.some.inj (hk.symm.trans hj)
      exact ⟨_, List.mem_of_getElem? (Slots.get_set_self hk _), rfl⟩
    · have hsame : (s.unloads.set k { call with pc })[j]? = some other := by
        rw [List.getElem?_set_ne hne.symm, hj]
      exact ⟨other, List.mem_of_getElem? hsame, rfl⟩
  · intro other hother rest hrest
    have hother : other ∈ t.unloads.set k { call with pc } := hother
    rw [hunloads] at hother
    obtain ⟨j, hj⟩ := List.mem_iff_getElem?.mp hother
    rcases Slots.get_set_cases hj with ⟨-, rfl⟩ | ⟨-, hj⟩
    · obtain ⟨more, hmore, hsub⟩ := hpc rest hrest
      exact .inr ⟨call, List.mem_of_getElem? hk, more, rfl, hmore, hsub⟩
    · exact .inr ⟨other, List.mem_of_getElem? hj, rest, rfl, hrest, fun _ h => h⟩

theorem calls_stepUnload {k : ℕ} {action : UnloadAction} {happened' : Happened}
    (h : s.stepUnload k action = some s') : Calls s s' happened' := by
  obtain ⟨call, hk, h⟩ := Option.bind_eq_some_iff.mp h
  obtain ⟨⟨t, pc⟩, hnext, rfl⟩ := Option.map_eq_some_iff.mp h
  cases State.unloadNext_cases hnext with
  | @told i rest hpc =>
    obtain ⟨hcancels, hunloads⟩ := tell_cancels s i .instanceUnloading
    refine setUnload_calls hk hcancels hunloads fun rest' hrest => ?_
    obtain rfl := UnloadPc.cancelling.inj hrest
    exact ⟨_, hpc, List.subset_cons_self _ _⟩
  | _ => exact setUnload_calls hk rfl rfl (fun rest hrest => by cases hrest)

theorem step_named (h : step ext s a = some s') : Calls s s' (happened.note s a) := by
  cases a with
  | embed request verify =>
    cases h
    exact calls_same (begin_calls s _ _).1 (begin_calls s _ _).2
  | generateText request verify =>
    cases h
    exact calls_same (begin_calls s _ _).1 (begin_calls s _ _).2
  | generateStream request body =>
    cases h
    exact calls_same (begin_calls s _ _).1 (begin_calls s _ _).2
  | request j b =>
    obtain ⟨r, hj, h⟩ := Option.bind_eq_some_iff.mp h
    obtain ⟨x, hx, rfl⟩ := Option.map_eq_some_iff.mp h
    exact calls_same rfl rfl
  | recordVerified j now =>
    simp only [step, State.recordVerified] at h
    split at h
    · split at h <;> cases h
      exact calls_same rfl rfl
    · cases h
  | recordGenerationStream demonstrated now =>
    cases h
    unfold State.recordGenerationStream
    split <;> exact calls_same rfl rfl
  | cancel requestId =>
    cases h
    refine calls_cancel s requestId ?_
    exact Function.update_self _ _ _
  | stepCancel k => exact calls_stepCancel h
  | activeRequests =>
    cases h
    exact calls_same rfl rfl
  | beginUnload drain =>
    cases h
    exact calls_beginUnload s drain
  | stepUnload k action => exact calls_stepUnload h
  | dropUnload k =>
    obtain ⟨call, hk, h⟩ := Option.bind_eq_some_iff.mp h
    split at h
    · cases h
      exact setUnload_calls hk rfl rfl (fun rest hrest => by cases hrest)
    · cases h
      exact setUnload_calls hk rfl rfl (fun rest hrest => by cases hrest)
    · cases h

/-! ### Every cause has happened -/

theorem evidence_later {id : RequestId} {cause : CancellationCause}
    (hcalls : Calls s s' (happened.note s a)) (h : Evidence s happened i id cause) :
    Evidence s' (happened.note s a) i id cause := by
  cases cause with
  | user =>
    obtain ⟨k, hk, hnamed⟩ := h
    exact ⟨k, Nat.lt_of_lt_of_le hk hcalls.grown, (note_named happened s a hk).trans hnamed⟩
  | instanceUnloading =>
    obtain ⟨call, hcall, hi⟩ := h
    obtain ⟨call', hcall', hsame⟩ := hcalls.kept call hcall
    exact ⟨call', hcall', hsame ▸ hi⟩
  | streamIdleTimeout => exact note_expired h
  | consumerGone => exact note_gone h

/-- What a request's own step writes on its token has just happened to it. -/
theorem stepped_evidence {b : RequestAction} {r : Request} {late : Bool}
    (hs : Attributed s happened) (hr : r.Valid ext) (hi : s.admitted[i]? = some r)
    (hinside : (Action.request i b).outside = false) (hstep : r.step ext late b = some r')
    {cause : CancellationCause} (hcause : r'.handle.cancellationCause = some cause) :
    r.handle.cancellationCause = some cause ∨
      Evidence s' (happened.note s (.request i b)) i r'.handle.id cause := by
  cases r with
  | whole w =>
    cases b with
    | whole action =>
      obtain ⟨w', hw, rfl⟩ := Option.map_eq_some_iff.mp hstep
      exact .inl ((Whole.step_cause hw).symm.trans hcause)
    | _ => cases hstep
  | accepted handle body =>
    cases b with
    | startGeneration =>
      cases hstep
      exact .inl hcause
    | _ => cases hstep
  | stream t =>
    cases b with
    | stream action =>
      obtain ⟨t', ht, rfl⟩ := Option.map_eq_some_iff.mp hstep
      have hcause : t'.chan.handle.cancellationCause = some cause := hcause
      cases Stream.State.step_cases ht with
      | @task b t' htask =>
        rcases Stream.State.taskStep_cause htask with hsame | hwrites
        · exact .inl (hsame.symm.trans hcause)
        · generalize t'.chan.handle.cancellationCause = written at hwrites hcause
          cases hwrites with
          | expired =>
            cases hbefore : t.chan.handle.cancellationCause with
            | some before =>
              rw [hbefore] at hcause
              exact .inl (hbefore.trans hcause)
            | none =>
              rw [hbefore] at hcause
              obtain rfl : CancellationCause.streamIdleTimeout = cause := Option.some.inj hcause
              exact .inr (Function.update_self _ _ _)
          | @told b told hpc =>
            rcases RequestHandle.requestCancellation_cases t.chan.handle told with
              ⟨-, he⟩ | ⟨-, -, he⟩ | ⟨-, hnone, he⟩
            · rw [he] at hcause
              exact .inl hcause
            · rw [he] at hcause
              exact .inl hcause
            · rw [he] at hcause
              obtain rfl : told = cause := Option.some.inj hcause
              have htold : t.pc.told = some told := by
                rw [hpc]
                rfl
              -- A cause that is not on the token yet is that the consumer went away.
              have hgone : t.chan.receiverAlive = false := by
                by_contra halive
                have hrecorded := (reachable_sound hr).told told htold (by simpa using halive)
                rw [hnone] at hrecorded
                cases hrecorded
              rcases Stream.State.reachable_heeds hr told htold with hrecorded | rfl
              · rw [hnone] at hrecorded
                cases hrecorded
              · exact .inr (note_gone (hs.left i t hi hgone))
      | told => cases hinside
      | aborted =>
        rcases Stream.State.dropSink_handle t.chan with hdrop | hdrop
        · simp only [Stream.State.ended, Stream.State.abandon, hdrop] at hcause
          exact .inl hcause
        · simp only [Stream.State.ended, Stream.State.abandon, hdrop,
            RequestHandle.finish_cause] at hcause
          exact .inl hcause
      | finished | read | dropped => exact .inl hcause
      | gone => exact .inl ((RequestHandle.finish_cause _ _).symm.trans hcause)
    | _ => cases hstep

/-- A stream that has lost its consumer has lost it before, or the consumer drops it. -/
theorem stepped_left {b : RequestAction} {r : Request} {late : Bool} {t' : Stream.State}
    (hs : Attributed s happened) (hi : s.admitted[i]? = some r)
    (hstep : r.step ext late b = some (.stream t')) (hgone : t'.chan.receiverAlive = false) :
    (happened.note s (.request i b)).gone i = true := by
  cases r with
  | whole w =>
    cases b with
    | whole action =>
      obtain ⟨w', -, hw⟩ := Option.map_eq_some_iff.mp hstep
      cases hw
    | _ => cases hstep
  | accepted handle body =>
    cases b with
    | startGeneration =>
      cases hstep
      cases hgone
    | _ => cases hstep
  | stream t =>
    cases b with
    | stream action =>
      obtain ⟨u, hu, heq⟩ := Option.map_eq_some_iff.mp hstep
      obtain rfl := Request.stream.inj heq
      rcases Stream.State.step_receiver hu hgone with hbefore | rfl
      · exact note_gone (hs.left i t hi hbefore)
      · exact Function.update_self _ _ _
    | _ => cases hstep

theorem teller_evidence {r : Request} {cause : CancellationCause} (hs : Attributed s happened)
    (hteller : Teller s i a cause) (hi : s.admitted[i]? = some r) :
    Evidence s happened i r.handle.id cause := by
  cases hteller with
  | @user k hk =>
    obtain ⟨r', hi', hnamed⟩ := hs.calls k _ i hk rfl
    rw [hi] at hi'
    obtain rfl := Option.some.inj hi'
    obtain ⟨hlt, -⟩ := List.getElem?_eq_some_iff.mp hk
    exact ⟨k, hlt, hnamed⟩
  | @unloading k call rest hk hpc =>
    have hcall := List.mem_of_getElem? hk
    exact ⟨call, hcall, hs.unloads call hcall _ hpc i List.mem_cons_self⟩

/-- The identifier of a request stays as it is. -/
theorem step_identifies (h : step ext s a = some s') {r : Request}
    (hi : s.admitted[i]? = some r) :
    ∃ r', s'.admitted[i]? = some r' ∧ r'.handle.id = r.handle.id := by
  obtain ⟨r', hi', hlater⟩ := (step_effect h).later hi
  exact ⟨r', hi', hlater.id⟩

theorem Attributed.step (hreach : Reachable (system ext) s) (hs : Attributed s happened)
    (hinside : a.outside = false) (h : LoadedModel.step ext s a = some s') :
    Attributed s' (happened.note s a) := by
  have hcalls : Calls s s' (happened.note s a) := step_named h
  refine ⟨?_, ?_, ?_, ?_⟩
  · intro i r' cause hi' hcause
    cases step_source h hi' with
    | same hi => exact evidence_later hcalls (hs.causes i r' cause hi hcause)
    | fresh hfresh =>
      rw [Fresh.handle_eq hfresh] at hcause
      cases hcause
    | @stepped b r ha hi hstep =>
      subst ha
      obtain ⟨r'', hi'', hid⟩ := step_identifies h hi
      obtain rfl : r'' = r' := Option.some.inj (hi''.symm.trans hi')
      rcases stepped_evidence hs (reachable_valid hreach i r hi) hi hinside hstep hcause with
        hbefore | hnow
      · rw [hid]
        exact evidence_later hcalls (hs.causes i r cause hi hbefore)
      · exact hnow
    | @told r told hteller hi hr =>
      have hlater := RequestHandle.later_requestCancellation r.handle told
      rw [hr, Request.withHandle_handle] at hcause ⊢
      rw [hlater.id]
      rcases RequestHandle.requestCancellation_cases r.handle told with
        ⟨-, he⟩ | ⟨-, -, he⟩ | ⟨-, -, he⟩
      · rw [he] at hcause
        exact evidence_later hcalls (hs.causes i r cause hi hcause)
      · rw [he] at hcause
        exact evidence_later hcalls (hs.causes i r cause hi hcause)
      · rw [he] at hcause
        obtain rfl : told = cause := Option.some.inj hcause
        exact evidence_later hcalls (teller_evidence hs hteller hi)
    | @verified w result hi hr =>
      subst hr
      exact evidence_later hcalls (hs.causes i (.whole w) cause hi hcause)
  · intro i t' hi' hgone
    cases step_source h hi' with
    | same hi => exact note_gone (hs.left i t' hi hgone)
    | fresh hfresh =>
      rcases hfresh with ⟨request, verify, hr⟩ | ⟨body, hr⟩ <;> cases hr
    | @stepped b r ha hi hstep =>
      subst ha
      exact stepped_left hs hi hstep hgone
    | @told r told hteller hi hr =>
      cases r with
      | stream t =>
        obtain rfl := Request.stream.inj hr
        exact note_gone (hs.left i t hi hgone)
      | _ => cases hr
    | verified hi hr => cases hr
  · intro k call i hk hi
    rcases hcalls.cancels k call i hk hi with ⟨before, hbefore, hrequest⟩ | ⟨id, hnamed, hlookup⟩
    · obtain ⟨r, hr, hnamed⟩ := hs.calls k before i hbefore hrequest
      obtain ⟨r', hr', hid⟩ := step_identifies h hr
      obtain ⟨hlt, -⟩ := List.getElem?_eq_some_iff.mp hbefore
      refine ⟨r', hr', ?_⟩
      rw [note_named happened s a hlt, hnamed, hid]
    · obtain ⟨r, hr, hrid⟩ := reachable_keyed hreach id i hlookup
      obtain ⟨r', hr', hid⟩ := step_identifies h hr
      refine ⟨r', hr', ?_⟩
      rw [hnamed, hid, hrid]
  · intro call hcall rest hpc i hi
    rcases hcalls.unloads call hcall rest hpc with rfl | ⟨before, hbefore, more, hsame, hmore, hsub⟩
    · exact hi
    · exact hsame ▸ hs.unloads before hbefore more hmore i (hsub hi)

/-- A run in which handles are shared as the program shares them. -/
def Inside (_ : State × Happened) (a : Action) : Prop := a.outside = false

theorem attributed_of_reachable {x : State × Happened}
    (h : ReachableWhile (witnessed ext) Inside x) : Attributed x.1 x.2 := by
  refine h.invariant (I := fun x => Attributed x.1 x.2) ?_ ?_
  · rintro ⟨first, happened⟩ ⟨⟨id, identity, capabilities, hfirst⟩, hhappened⟩
    obtain rfl : first = new id identity capabilities := hfirst
    refine ⟨?_, ?_, ?_, ?_⟩ <;> simp [new]
  · intro x x' a hr hi hok hstep
    obtain ⟨hst, hnote⟩ := recording_step hstep
    rw [hnote]
    exact hi.step hr.reachable.unrecorded hok hst

theorem conclude_not_stopped (request : WholeRequest) (sent : Sent) (cause : CancellationCause) :
    (conclude request sent).2 ≠ .error (.stopped cause) := by
  unfold conclude
  split
  · simp
  · split <;> simp
  · simp
  · split <;> simp
  · simp
  · simp

/-- What the caller of a stopped request is told is the recorded cause. -/
theorem returned_cause {w : Whole} {cause : CancellationCause} (hs : w.Stands w.pc)
    (hpc : w.pc = .returned (.error (.stopped cause))) :
    w.handle.cancellationCause = some cause := by
  rw [hpc] at hs
  rcases hs.2 with ⟨recorded, heq, hcause⟩ | ⟨late, sent, -, hresult⟩
  · cases heq
    exact hcause
  · exact absurd hresult (conclude_not_stopped _ _ _)

theorem causes_happened (ext : Externals) (x : State × Happened)
    (hx : ReachableWhile (witnessed ext) Inside x) :
    (∀ i r cause, x.1.admitted[i]? = some r → r.handle.cancellationCause = some cause →
      Evidence x.1 x.2 i r.handle.id cause) ∧
    (∀ i w cause, x.1.admitted[i]? = some (.whole w) →
      w.pc = .returned (.error (.stopped cause)) → Evidence x.1 x.2 i w.handle.id cause) ∧
    ∀ i t id cause, x.1.admitted[i]? = some (.stream t) →
      .ok (.cancelled id cause) ∈ t.chan.delivered → Evidence x.1 x.2 i t.chan.handle.id cause := by
  have hs := attributed_of_reachable hx
  have hvalid := reachable_valid hx.reachable.unrecorded
  refine ⟨hs.causes, ?_, ?_⟩
  · intro i w cause hi hpc
    exact hs.causes i (.whole w) cause hi (returned_cause (hvalid i (.whole w) hi) hpc)
  · intro i t id cause hi hitem
    have hrecorded := cancelled_cause (hvalid i (.stream t) hi) id cause (List.mem_append_left _ hitem)
    exact hs.causes i (.stream t) cause hi hrecorded

/-- A consumer leaves while its stream connects, and the user then asks for another one. -/
def leftConnecting : List Action :=
  [.generateStream sampleGenerate (.ok []), .request 0 .startGeneration,
    .request 0 (.stream (.task .run)), .request 0 (.stream (.task .pollToken)),
    .request 0 (.stream .dropStream), .request 0 (.stream (.task .pollClosed)),
    .request 0 (.stream (.task .run)), .embed ⟨["x"]⟩ false, .cancel ⟨2⟩, .stepCancel 0,
    .stepCancel 0]

theorem causes_happened_leftConnecting :
    ∃ x : State × Happened, ReachableWhile (witnessed sampleExternals) Inside x ∧
      (∃ r, x.1.admitted[0]? = some r ∧ r.handle.cancellationCause = some .consumerGone) ∧
      x.2.gone 0 = true ∧
      (∃ r, x.1.admitted[1]? = some r ∧ r.handle.cancellationCause = some .user) ∧
      ∃ k < x.1.cancels.length, x.2.named k = some ⟨2⟩ := by
  obtain ⟨x, hrun, r, hr, hgone, r', hr', huser, hid⟩ :
      ∃ x, (witnessed sampleExternals).runWhile (fun _ a => !a.outside) (sampleInstance, .nothing)
          leftConnecting = some x ∧
        ∃ r, x.1.admitted[0]? = some r ∧ r.handle.cancellationCause = some .consumerGone ∧
        ∃ r', x.1.admitted[1]? = some r' ∧ r'.handle.cancellationCause = some .user ∧
          r'.handle.id = ⟨2⟩ := ⟨_, rfl, _, rfl, rfl, _, rfl, rfl, rfl⟩
  have hx : ReachableWhile (witnessed sampleExternals) Inside x := by
    refine reachableWhile_of_run ?_ (.init ⟨sampleInstance_init sampleExternals, rfl⟩) hrun
    intro _ a hinside
    simpa [Inside] using hinside
  have hcauses := (causes_happened sampleExternals x hx).1
  refine ⟨x, hx, ⟨r, hr, hgone⟩, hcauses 0 r .consumerGone hr hgone, ⟨r', hr', huser⟩, ?_⟩
  exact hid ▸ hcauses 1 r' .user hr' huser

end LoadedModel
end MehoyRuntime.Runtime
