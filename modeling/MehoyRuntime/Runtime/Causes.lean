import MehoyRuntime.Runtime.Cleanup

/-!
# States and causes

The state of a request and the cause on its token are under two locks. Which operation on
the handle a step makes is said once for each party, and what state and cause say of each
other is derived from that.
-/

namespace MehoyRuntime.Core.RequestHandle

/-- A request that was told to stop shows it. -/
def Shows (h : RequestHandle) : Prop :=
  h.cancellationCause ≠ none → h.state = .cancelling ∨ h.isTerminal = true

/-- What shows that it was told to stop has a cause. -/
def Caused (h : RequestHandle) : Prop :=
  h.state = .cancelling ∨ h.state = .cancelled → h.cancellationCause ≠ none

variable {h : RequestHandle}

theorem shows_of_terminal (ht : h.isTerminal = true) : h.Shows := fun _ => .inr ht

theorem Shows.markRunning (hs : h.Shows) : h.markRunning.Shows := by
  intro hcause
  rw [markRunning_cause] at hcause
  rcases hs hcause with hstate | ht
  · have hsame : h.markRunning = h := by simp [RequestHandle.markRunning, hstate]
    rw [hsame]
    exact .inl hstate
  · rw [markRunning_isTerminal]
    exact .inr ht

theorem Shows.requestCancellation (hs : h.Shows) (cause : CancellationCause) :
    (h.requestCancellation cause).2.Shows := by
  rcases requestCancellation_cases h cause with ⟨-, he⟩ | ⟨-, -, he⟩ | ⟨-, -, he⟩
  · rw [he]
    exact hs
  · rw [he]
    exact hs
  · rw [he]
    exact fun _ => .inl rfl

theorem shows_finish {outcome : RequestState} (ho : outcome.isTerminal = true)
    (h : RequestHandle) : (h.finish outcome).2.Shows :=
  shows_of_terminal (finish_isTerminal ho h)

/-- The token alone is told: the request shows it exactly where it had been told before. -/
theorem Shows.cancelToken_iff (hs : h.Shows) (hc : h.Caused) (ht : h.isTerminal = false)
    (cause : CancellationCause) :
    (h.cancelToken cause).Shows ↔ h.cancellationCause ≠ none := by
  constructor
  · intro hshows hnone
    have htold : (h.cancelToken cause).cancellationCause ≠ none := by
      rw [cancelToken_cause]
      simp
    rcases hshows htold with hstate | hterminal
    · exact hc (.inl hstate) hnone
    · have hsame : (h.cancelToken cause).isTerminal = h.isTerminal := rfl
      rw [hsame, ht] at hterminal
      cases hterminal
  · intro htold _
    exact hs htold

theorem Caused.later {h' : RequestHandle} (hc : h.Caused) (hl : h.Later h')
    (hstate : h'.state = .cancelling ∨ h'.state = .cancelled → h.state = h'.state) : h'.Caused := by
  intro hstopping hnone
  have htold : h.cancellationCause ≠ none := hc (hstate hstopping ▸ hstopping)
  obtain ⟨cause, hcause⟩ := Option.ne_none_iff_exists'.mp htold
  rw [hl.cause cause hcause] at hnone
  cases hnone

theorem Caused.markRunning (hc : h.Caused) : h.markRunning.Caused := by
  refine hc.later (later_markRunning h) fun hstopping => ?_
  unfold RequestHandle.markRunning at hstopping ⊢
  split at hstopping
  · rcases hstopping with hstate | hstate <;> cases hstate
  · rename_i hstate
    rw [if_neg hstate]

theorem Caused.requestCancellation (hc : h.Caused) (cause : CancellationCause) :
    (h.requestCancellation cause).2.Caused := by
  rcases requestCancellation_cases h cause with ⟨-, he⟩ | ⟨-, -, he⟩ | ⟨-, -, he⟩
  · rw [he]
    exact hc
  · rw [he]
    exact hc
  · rw [he]
    exact fun _ hnone => by cases hnone

theorem Caused.finish (hc : h.Caused) {outcome : RequestState} (hopen : outcome ≠ .cancelling)
    (hcancelled : outcome = .cancelled → h.cancellationCause ≠ none) :
    (h.finish outcome).2.Caused := by
  cases ht : h.isTerminal with
  | true =>
    rw [finish_of_terminal ht]
    exact hc
  | false =>
    rw [finish_of_not_terminal ht]
    rintro (hstate | hstate)
    · exact (hopen hstate).elim
    · exact hcancelled hstate

theorem Caused.cancelToken (cause : CancellationCause) : (h.cancelToken cause).Caused := by
  intro _
  rw [cancelToken_cause]
  simp

end MehoyRuntime.Core.RequestHandle

namespace MehoyRuntime.Stream
open MehoyRuntime.Core TransitionSystem
variable {ext : Externals} {t t' : State}

/-- The program point a cancelled request is finished at. -/
def Pc.finishesCancelled : Pc → Bool
  | .finishing .cancelled _ => true
  | _ => false

/-- What one step of a stream does to the handle. -/
inductive Touches (t : State) : Action → RequestHandle → Prop
  | kept {a} : Touches t a t.chan.handle
  | running {a} : Touches t a t.chan.handle.markRunning
  | told {a} (cause : CancellationCause) : Touches t a (t.chan.handle.requestCancellation cause).2
  | failed {a} : Touches t a (t.chan.handle.finish .failed).2
  | finished {a outcome item} (hpc : t.pc = .finishing outcome item) :
      Touches t a (t.chan.handle.finish outcome).2
  | expired {point} (hpc : t.pc = .awaiting point .work) :
      Touches t (.task .pollElapsed) (t.chan.handle.cancelToken .streamIdleTimeout)

namespace State

theorem dropSink_handle (c : Channel) :
    c.dropSink.handle = c.handle ∨ c.dropSink.handle = (c.handle.finish .failed).2 := by
  unfold Channel.dropSink
  cases c.sinkFinished
  · exact .inr rfl
  · exact .inl rfl

theorem consumeSink_handle (t : State) (pc : Pc) : (t.consumeSink pc).chan.handle = t.chan.handle := by
  unfold consumeSink
  cases hsink : t.chan.sinkFinished <;> simp [ended, Channel.dropSink, hsink]

theorem interrupted_handle (t : State) (point : AwaitPoint) (cause : CancellationCause) :
    (t.interrupted point cause).chan.handle = t.chan.handle := by
  cases point with
  | reading => rfl
  | connecting | handshaking | sending | collecting => exact t.release.consumeSink_handle _

theorem close_handle (t : State) (outcome : Except Interruption EndOfBody) :
    (t.close outcome).chan.handle = t.chan.handle := by
  unfold close
  split
  · exact t.release.consumeSink_handle _
  · exact t.release.consumeSink_handle _
  · dsimp only
    split <;> exact t.release.consumeSink_handle _

theorem framed_handle (t : State) (outcome : Option (Except String (Option (List UInt8)))) :
    (t.framed outcome).chan.handle = t.chan.handle := by
  unfold framed
  split <;> try rfl
  split <;> rfl

theorem handlePayloads_handle (t : State) (payloads : List String) :
    (t.handlePayloads ext payloads).chan.handle = t.chan.handle := by
  unfold handlePayloads
  split
  · rfl
  · split <;> try rfl
    dsimp only
    split <;> rfl

theorem resumed_touches {point : AwaitPoint} {outcome : WorkOutcome} {a : Action}
    (h : t.resumed ext point outcome = some t') : Touches t a t'.chan.handle := by
  unfold resumed at h
  split at h <;> cases h
  case h_2 | h_4 => exact .kept
  case h_6 => exact .running
  case h_9 =>
    rw [t.framed_handle]
    exact .kept
  all_goals
    have hsame := t.release.consumeSink_handle
    simp only [fail, hsame]
    exact .kept

theorem send_handle {c c' : Channel} {item : StreamItem} {alive : Bool}
    (h : c.send item = some (alive, c')) : c'.handle = c.handle := by
  rcases Channel.send_cases h with ⟨-, -, rfl⟩ | ⟨-, -, -, rfl⟩ <;> rfl

theorem taskStep_touches {a : TaskAction} (h : t.taskStep ext t.pc a = some t') :
    Touches t (.task a) t'.chan.handle := by
  cases taskStep_cases h with
  | started | untold | held | pending | built => exact .kept
  | unencoded =>
    rw [fail, t.consumeSink_handle]
    exact .kept
  | unbuilt =>
    rw [fail, t.release.consumeSink_handle]
    exact .kept
  | told | abandoned =>
    rw [t.interrupted_handle]
    exact .kept
  | resumed _ hresumed => exact resumed_touches hresumed
  | elapsed hpc =>
    rw [elapsed, interrupted_handle]
    exact .expired hpc
  | handled =>
    rw [t.handlePayloads_handle]
    exact .kept
  | emitted _ hsend | unheard _ hsend =>
    have hsame := send_handle hsend
    simp only [hsame]
    exact .kept
  | closed =>
    rw [t.close_handle]
    exact .kept
  | cancelled => exact .told _
  | finished hpc => exact .finished hpc
  | @announced item alive chan _ hsend =>
    have hsame := send_handle hsend
    rcases dropSink_handle chan with hdrop | hdrop
    · simp only [ended, hdrop, hsame]
      exact .kept
    · simp only [ended, hdrop, hsame]
      exact .failed

theorem step_touches {a : Action} (h : step ext t a = some t') : Touches t a t'.chan.handle := by
  cases step_cases h with
  | task htask => exact taskStep_touches htask
  | aborted =>
    rcases dropSink_handle t.chan with hdrop | hdrop
    · simp only [ended, abandon, hdrop]
      exact .kept
    · simp only [ended, abandon, hdrop]
      exact .failed
  | told => exact .told _
  | finished | read | dropped => exact .kept
  | gone => exact .failed

theorem consumeSink_finishesCancelled {pc : Pc} (h : pc.finishesCancelled = false) :
    (t.consumeSink pc).pc.finishesCancelled = false := by
  unfold consumeSink
  split
  · rfl
  · exact h

theorem interrupted_finishesCancelled (t : State) (point : AwaitPoint) (cause : CancellationCause) :
    (t.interrupted point cause).pc.finishesCancelled = false := by
  cases point with
  | reading => rfl
  | connecting | handshaking | sending | collecting => exact consumeSink_finishesCancelled rfl

theorem resumed_finishesCancelled {point : AwaitPoint} {outcome : WorkOutcome}
    (h : t.resumed ext point outcome = some t') : t'.pc.finishesCancelled = false := by
  unfold resumed at h
  split at h <;> cases h
  case h_2 | h_4 => rfl
  case h_6 => rfl
  case h_9 =>
    unfold framed
    split <;> try rfl
    split <;> rfl
  all_goals exact consumeSink_finishesCancelled rfl

/-- A request is finished as cancelled right after its handle was told. -/
theorem finishesCancelled_cases {a : TaskAction} (h : t.taskStep ext t.pc a = some t')
    (hp : t'.pc.finishesCancelled = true) : ∃ cause, t.pc = .cancelling cause ∧
      t'.chan.handle = (t.chan.handle.requestCancellation cause).2 := by
  have habsurd (hfalse : t'.pc.finishesCancelled = false) : ∃ cause, t.pc = .cancelling cause ∧
      t'.chan.handle = (t.chan.handle.requestCancellation cause).2 := by
    rw [hfalse] at hp
    cases hp
  cases taskStep_cases h with
  | cancelled hpc => exact ⟨_, hpc, rfl⟩
  | unencoded | unbuilt => exact habsurd (consumeSink_finishesCancelled rfl)
  | told | abandoned | elapsed => exact habsurd (interrupted_finishesCancelled _ _ _)
  | resumed _ hresumed => exact habsurd (resumed_finishesCancelled hresumed)
  | handled =>
    refine habsurd ?_
    unfold handlePayloads
    split
    · rfl
    · split <;> try rfl
      dsimp only
      split <;> rfl
  | closed =>
    refine habsurd ?_
    unfold close
    split
    · exact consumeSink_finishesCancelled rfl
    · exact consumeSink_finishesCancelled rfl
    · dsimp only
      split <;> exact consumeSink_finishesCancelled rfl
  | started | untold | held | pending | built | emitted | unheard | finished | announced =>
    exact habsurd rfl

/-- What a stream's handle shows has a cause, and so has a cancellation about to be recorded. -/
structure Explained (t : State) : Prop where
  caused : t.chan.handle.Caused
  finishing : t.pc.finishesCancelled = true → t.chan.handle.cancellationCause ≠ none

theorem step_explained {a : Action} (hs : t.Sound) (he : t.Explained)
    (h : step ext t a = some t') : t'.Explained where
  caused := by
    have htouches := step_touches h
    generalize t'.chan.handle = handle at htouches
    cases htouches with
    | kept => exact he.caused
    | running => exact he.caused.markRunning
    | told cause => exact he.caused.requestCancellation cause
    | failed => exact he.caused.finish nofun nofun
    | @finished a outcome item hpc =>
      have hfits := (hs.fits outcome item hpc).1
      refine he.caused.finish ?_ fun ho => he.finishing ?_
      · rintro rfl
        exact hfits
      · rw [hpc, ho]
        rfl
    | expired => exact .cancelToken _
  finishing hp := by
    have hlater : t.pc.finishesCancelled = true → t'.chan.handle.cancellationCause ≠ none := by
      intro hbefore hnone
      obtain ⟨cause, hcause⟩ := Option.ne_none_iff_exists'.mp (he.finishing hbefore)
      rw [(step_later h).cause cause hcause] at hnone
      cases hnone
    cases step_cases h with
    | task htask =>
      obtain ⟨cause, hpc, hhandle⟩ := finishesCancelled_cases htask hp
      have hopen : t'.chan.handle.isTerminal = false := by
        rw [hhandle, RequestHandle.requestCancellation_isTerminal, hs.status, hpc]
        rfl
      have hended := RequestHandle.requestCancellation_endedOrTold t.chan.handle cause
      rw [← hhandle] at hended
      rcases hended with hterminal | ⟨told, htold⟩
      · rw [hopen] at hterminal
        cases hterminal
      · rw [htold]
        simp
    | aborted => cases hp
    | told | finished | read | gone | dropped => exact hlater hp

theorem reachable_explained (h : Reachable (system ext) t) : t.Explained := by
  induction h with
  | init hi =>
    obtain ⟨handle, body, ⟨id, hhandle⟩, rfl⟩ := hi
    have hnew : (RequestHandle.new id).Caused := by
      rintro (hstate | hstate) <;> cases hstate
    refine ⟨?_, fun hp => by cases hp⟩
    rcases hhandle with rfl | ⟨cause, rfl⟩
    · exact hnew
    · exact hnew.requestCancellation cause
  | step hreach _ hst ih => exact step_explained (reachable_sound hreach) ih hst

/-- A stream goes on showing that it was told, unless its idle budget runs out first. -/
theorem step_shows {a : Action} (hs : t.Sound) (hshows : t.chan.handle.Shows)
    (hbudget : a = .task .pollElapsed → t.chan.handle.cancellationCause ≠ none)
    (h : step ext t a = some t') : t'.chan.handle.Shows := by
  have htouches := step_touches h
  generalize t'.chan.handle = handle at htouches
  cases htouches with
  | kept => exact hshows
  | running => exact hshows.markRunning
  | told cause => exact hshows.requestCancellation cause
  | failed => exact RequestHandle.shows_finish rfl _
  | @finished a outcome item hpc =>
    have hterminal : outcome.isTerminal = true := by
      have hfits := (hs.fits outcome item hpc).1
      cases outcome <;> first | rfl | exact hfits.elim
    exact RequestHandle.shows_finish hterminal _
  | expired => exact fun _ => hshows (hbudget rfl)

end State
end MehoyRuntime.Stream

namespace MehoyRuntime.Runtime
open MehoyRuntime.Core MehoyRuntime.Stream TransitionSystem KeyedTable
variable {ext : Externals}

theorem conclude_ne_cancelled (request : WholeRequest) (x : Sent) :
    (conclude request x).1 ≠ .cancelled := by
  unfold conclude
  split
  · nofun
  · split <;> nofun
  · nofun
  · split <;> nofun
  · nofun
  · nofun

theorem Whole.step_caused {late : Bool} {w w' : Whole} {a : WholeAction} (hs : w.Stands w.pc)
    (hc : w.handle.Caused) (h : w.step late w.pc a = some w') : w'.handle.Caused := by
  cases Whole.step_cases h with
  | running => exact hc.markRunning
  | @stopped cause hpc =>
    rw [hpc] at hs
    refine hc.finish nofun fun _ => ?_
    rw [hs.2]
    simp
  | @settled sent hpc =>
    have hterminal := conclude_isTerminal w.request sent
    refine hc.finish ?_ fun ho => (conclude_ne_cancelled w.request sent ho).elim
    intro ho
    rw [ho] at hterminal
    cases hterminal
  | arrived | told | answered | waiting | dropped => exact hc

theorem Whole.step_shows {late : Bool} {w w' : Whole} {a : WholeAction} (hs : w.handle.Shows)
    (h : w.step late w.pc a = some w') : w'.handle.Shows := by
  cases Whole.step_cases h with
  | running => exact hs.markRunning
  | stopped => exact RequestHandle.shows_finish rfl _
  | @settled sent hpc => exact RequestHandle.shows_finish (conclude_isTerminal w.request sent) _
  | arrived | told | answered | waiting | dropped => exact hs

theorem Fresh.handle_eq {handle : RequestHandle} {r : Request} (h : LoadedModel.Fresh handle r) :
    r.handle = handle := by
  rcases h with ⟨request, verify, rfl⟩ | ⟨body, rfl⟩ <;> rfl

namespace LoadedModel
variable {a : Action} {s s' : State}

theorem new_caused (id : RequestId) : (RequestHandle.new id).Caused := by
  rintro (hstate | hstate) <;> cases hstate

theorem new_shows (id : RequestId) : (RequestHandle.new id).Shows := fun hcause => (hcause rfl).elim

theorem Move.caused {late : Bool} {r r' : Request} (hr : r.Valid ext) (hc : r.handle.Caused)
    (h : Move ext late r r') : r'.handle.Caused := by
  cases h with
  | step b hb =>
    cases r with
    | whole w =>
      cases b with
      | whole action =>
        obtain ⟨w', hw, rfl⟩ := Option.map_eq_some_iff.mp hb
        exact Whole.step_caused hr hc hw
      | _ => cases hb
    | accepted handle body =>
      cases b with
      | startGeneration =>
        cases hb
        exact hc
      | _ => cases hb
    | stream t =>
      cases b with
      | stream action =>
        obtain ⟨t', ht, rfl⟩ := Option.map_eq_some_iff.mp hb
        have ht' : Reachable (Stream.system ext) t' := Reachable.next action hr ht
        exact (Stream.State.reachable_explained ht').caused
      | _ => cases hb
  | told cause =>
    rw [Request.withHandle_handle]
    exact hc.requestCancellation cause
  | verified => exact hc

/-- Whatever happens, a request that is stopping or was cancelled has a cause. -/
theorem reachable_caused (h : Reachable (system ext) s) :
    ∀ (i : ℕ) (r : Request), s.admitted[i]? = some r → r.handle.Caused := by
  refine reachable_requests (P := fun r => r.handle.Caused) ?_ ?_ h
  · intro id r hfresh
    rw [Fresh.handle_eq hfresh]
    exact new_caused id
  · intro t i r r' ht hi hc hmove
    exact hmove.caused (reachable_valid ht i r hi) hc

/-! ### Steps that touch a request -/

/-- Where a request after a step comes from. -/
inductive Origin (ext : Externals) (s : State) (a : Action) (i : ℕ) (r' : Request) : Prop
  | same (hi : s.admitted[i]? = some r')
  | fresh (hfresh : Fresh (.new s.requests.request.1) r')
  | stepped {b r} (ha : a = .request i b) (hi : s.admitted[i]? = some r)
      (hstep : r.step ext (0 < s.stopCalls) b = some r')
  | told {r cause} (hi : s.admitted[i]? = some r)
      (hr : r' = r.withHandle (r.handle.requestCancellation cause).2)
  | verified {w result} (hi : s.admitted[i]? = some (.whole w))
      (hr : r' = .whole { w with pc := .returned (.ok result) })

variable {i : ℕ} {r' : Request}

theorem begin_origin {valid : Except LoadError Unit} {request : RequestHandle → Request}
    (hfresh : ∀ handle, Fresh handle (request handle))
    (hi : (s.begin valid request).admitted[i]? = some r') : Origin ext s a i r' := by
  unfold State.begin at hi
  split at hi
  · exact .same hi
  · split at hi
    · exact .same hi
    · rename_i hadmit
      unfold State.admitRequest at hadmit
      split at hadmit
      · cases hadmit
      · split at hadmit <;> cases hadmit
        rcases Slots.get_push_cases hi with ⟨-, rfl⟩ | hi
        · exact .fresh (hfresh _)
        · exact .same hi

theorem tell_origin {j : ℕ} {cause : CancellationCause}
    (hi : (s.tell j cause).admitted[i]? = some r') : Origin ext s a i r' := by
  unfold State.tell State.onHandle at hi
  cases hj : s.admitted[j]? with
  | none =>
    rw [hj] at hi
    exact .same hi
  | some r =>
    rw [hj] at hi
    rcases Slots.get_set_cases hi with ⟨rfl, rfl⟩ | ⟨-, hi⟩
    · exact .told hj rfl
    · exact .same hi

theorem UnloadStep.origin {call : UnloadCall} {action : UnloadAction} {s₁ : State} {pc : UnloadPc}
    (h : UnloadStep s call action s₁ pc) (hi : s₁.admitted[i]? = some r') : Origin ext s a i r' := by
  cases h with
  | told => exact tell_origin hi
  | _ => exact .same hi

theorem step_origin (h : step ext s a = some s') (hi : s'.admitted[i]? = some r') :
    Origin ext s a i r' := by
  cases a with
  | embed request verify =>
    cases h
    exact begin_origin (fun _ => .inl ⟨_, _, rfl⟩) hi
  | generateText request verify =>
    cases h
    exact begin_origin (fun _ => .inl ⟨_, _, rfl⟩) hi
  | generateStream request body =>
    cases h
    exact begin_origin (fun _ => .inr ⟨_, rfl⟩) hi
  | request j b =>
    obtain ⟨r, hj, h⟩ := Option.bind_eq_some_iff.mp h
    obtain ⟨x, hx, rfl⟩ := Option.map_eq_some_iff.mp h
    rcases Slots.get_set_cases hi with ⟨rfl, rfl⟩ | ⟨-, hi⟩
    · exact .stepped rfl hj hx
    · exact .same hi
  | recordVerified j now =>
    simp only [step, State.recordVerified] at h
    split at h
    · rename_i w hj
      split at h <;> cases h
      rcases Slots.get_set_cases hi with ⟨rfl, rfl⟩ | ⟨-, hi⟩
      · exact .verified hj rfl
      · exact .same hi
    · cases h
  | recordGenerationStream demonstrated now =>
    cases h
    unfold State.recordGenerationStream at hi
    split at hi <;> exact .same hi
  | cancel requestId =>
    cases h
    unfold State.cancel at hi
    dsimp only at hi
    split at hi <;> exact .same hi
  | stepCancel k =>
    obtain ⟨call, -, h⟩ := Option.bind_eq_some_iff.mp h
    obtain ⟨⟨s₁, call'⟩, hnext, rfl⟩ := Option.map_eq_some_iff.mp h
    rcases (State.cancelNext_cases hnext).1 with rfl | ⟨j, rfl⟩
    · exact .same hi
    · exact tell_origin hi
  | activeRequests =>
    cases h
    exact .same hi
  | beginUnload drain =>
    cases h
    unfold State.beginUnload at hi
    split at hi <;> exact .same hi
  | stepUnload k action =>
    obtain ⟨call, -, h⟩ := Option.bind_eq_some_iff.mp h
    obtain ⟨⟨s₁, pc⟩, hnext, rfl⟩ := Option.map_eq_some_iff.mp h
    exact UnloadStep.origin (State.unloadNext_cases hnext) hi
  | dropUnload k =>
    obtain ⟨call, -, h⟩ := Option.bind_eq_some_iff.mp h
    split at h <;> cases h <;> exact .same hi

/-! ### State and cause agree -/

/-- A stream's idle budget runs out before the request was told to stop. -/
def ExpiresSilently (s : State) (a : Action) : Prop :=
  ∃ i t, a = .request i (.stream (.task .pollElapsed)) ∧ s.admitted[i]? = some (.stream t) ∧
    t.chan.handle.cancellationCause = none

/-- Every handle shows what its token says, and has a cause for what it shows. -/
def Agrees (s : State) : Prop :=
  ∀ (i : ℕ) (r : Request), s.admitted[i]? = some r → r.handle.Shows ∧ r.handle.Caused

theorem step_shows {b : RequestAction} {r : Request} {late : Bool} (hr : r.Valid ext)
    (hs : r.handle.Shows)
    (hbudget : ∀ t, r = .stream t → b = .stream (.task .pollElapsed) →
      t.chan.handle.cancellationCause ≠ none)
    (h : r.step ext late b = some r') : r'.handle.Shows := by
  cases r with
  | whole w =>
    cases b with
    | whole action =>
      obtain ⟨w', hw, rfl⟩ := Option.map_eq_some_iff.mp h
      exact Whole.step_shows hs hw
    | _ => cases h
  | accepted handle body =>
    cases b with
    | startGeneration =>
      cases h
      exact hs
    | _ => cases h
  | stream t =>
    cases b with
    | stream action =>
      obtain ⟨t', ht, rfl⟩ := Option.map_eq_some_iff.mp h
      refine Stream.State.step_shows (reachable_sound hr) hs (fun ha => ?_) ht
      exact hbudget t rfl (by rw [ha])
    | _ => cases h

theorem Agrees.step (hs : Reachable (system ext) s) (hagrees : Agrees s)
    (hbudget : ¬ ExpiresSilently s a) (h : step ext s a = some s') : Agrees s' := by
  intro i r' hi
  refine ⟨?_, reachable_caused (hs.next a h) i r' hi⟩
  cases step_origin h hi with
  | same hi => exact (hagrees i r' hi).1
  | fresh hfresh =>
    rw [Fresh.handle_eq hfresh]
    exact new_shows _
  | @stepped b r ha hi hstep =>
    refine step_shows (reachable_valid hs i r hi) (hagrees i r hi).1 ?_ hstep
    rintro t rfl rfl hnone
    exact hbudget ⟨i, t, ha, hi, hnone⟩
  | @told r cause hi hr =>
    rw [hr, Request.withHandle_handle]
    exact (hagrees i r hi).1.requestCancellation cause
  | @verified w result hi hr =>
    rw [hr]
    exact (hagrees i _ hi).1

theorem agrees_of_budgets (hs : ReachableWhile (system ext) (fun s a => ¬ ExpiresSilently s a) s) :
    Agrees s := by
  induction hs with
  | init hi =>
    obtain ⟨id, identity, capabilities, rfl⟩ := hi
    intro i r hr
    simp [new] at hr
  | step hreach hok hst ih => exact ih.step hreach.reachable hok hst

/-- The budget of a request that nobody told writes the token and not the state. -/
theorem not_agrees_of_expiry (hs : Reachable (system ext) s) (hagrees : Agrees s)
    (hexpires : ExpiresSilently s a) (h : step ext s a = some s') : ¬ Agrees s' := by
  obtain ⟨i, t, rfl, hi, hnone⟩ := hexpires
  intro hafter
  obtain ⟨r, hr, h⟩ := Option.bind_eq_some_iff.mp h
  obtain rfl : r = .stream t := Option.some.inj (hr.symm.trans hi)
  obtain ⟨r', hr', rfl⟩ := Option.map_eq_some_iff.mp h
  obtain ⟨t', ht, rfl⟩ := Option.map_eq_some_iff.mp hr'
  have hshows := (hafter i _ (Slots.get_set_self hi _)).1
  have hsound := reachable_sound (reachable_valid hs i _ hi)
  obtain ⟨point, hpc⟩ : ∃ point, t.pc = .awaiting point .work := by
    cases Stream.State.taskStep_cases ht with
    | elapsed hpc => exact ⟨_, hpc⟩
  have hopen : t.chan.handle.isTerminal = false := by
    rw [hsound.status, hpc]
    rfl
  have hhandle : t'.chan.handle = t.chan.handle.cancelToken .streamIdleTimeout := by
    cases Stream.State.taskStep_cases ht with
    | elapsed => exact Stream.State.interrupted_handle _ _ _
  have htold : (t.chan.handle.cancelToken .streamIdleTimeout).Shows := hhandle ▸ hshows
  obtain ⟨hbefore, hcaused⟩ := hagrees i _ hi
  exact (hbefore.cancelToken_iff hcaused hopen .streamIdleTimeout).mp htold hnone

/-- In every run whose idle budgets only run out on requests told to stop before, state and
cause agree: what `request_state` reports of a request that was told is not that it starts or
runs. A step keeps that exactly where it is no such expiry. -/
theorem state_cause_agree (hs : ReachableWhile (system ext) (fun s a => ¬ ExpiresSilently s a) s) :
    Agrees s ∧
    (∀ requestId i r, s.active.lookup requestId = some i → s.admitted[i]? = some r →
      r.handle.cancellationCause ≠ none →
        s.requestState requestId ≠ some .starting ∧ s.requestState requestId ≠ some .running) ∧
    ∀ a s', step ext s a = some s' → (Agrees s' ↔ ¬ ExpiresSilently s a) := by
  have hagrees : Agrees s := agrees_of_budgets hs
  refine ⟨hagrees, ?_, fun a s' h => ?_⟩
  · intro requestId i r hlookup hi htold
    have hstate : s.requestState requestId = some r.handle.state := by
      simp [State.requestState, hlookup, hi]
    rw [hstate]
    rcases (hagrees i r hi).1 htold with hcancelling | hterminal
    · rw [hcancelling]
      exact ⟨nofun, nofun⟩
    · constructor
      · intro hstarting
        simp [RequestHandle.isTerminal, Option.some.inj hstarting, RequestState.isTerminal] at hterminal
      · intro hrunning
        simp [RequestHandle.isTerminal, Option.some.inj hrunning, RequestState.isTerminal] at hterminal
  · constructor
    · exact fun hafter hexpires => not_agrees_of_expiry hs.reachable hagrees hexpires h hafter
    · exact fun hbudget => hagrees.step hs.reachable hbudget h

def sampleGenerate : GenerateTextRequest := ⟨.continuation "x", .default⟩

/-- A stream is accepted and told to stop while it connects. -/
def toldConnecting : List Action :=
  [.generateStream sampleGenerate (.ok []), .request 0 .startGeneration,
    .request 0 (.stream (.task .run)), .request 0 (.stream (.task .pollToken)), .cancel ⟨1⟩,
    .stepCancel 0, .stepCancel 0]

def keepsBudgets (_ : State) : Action → Bool
  | .request _ (.stream (.task .pollElapsed)) => false
  | _ => true

theorem state_cause_agree_toldConnecting :
    ∃ s, (system sampleExternals).runWhile keepsBudgets sampleInstance toldConnecting = some s ∧
      ∃ r, s.admitted[0]? = some r ∧ r.handle.cancellationCause = some .user ∧
        s.requestState ⟨1⟩ ≠ some .starting := by
  obtain ⟨s, hrun, hlookup, r, hr, hcause⟩ :
      ∃ s, (system sampleExternals).runWhile keepsBudgets sampleInstance toldConnecting = some s ∧
        s.active.lookup ⟨1⟩ = some 0 ∧
        ∃ r, s.admitted[0]? = some r ∧ r.handle.cancellationCause = some .user :=
    ⟨_, rfl, rfl, _, rfl, rfl⟩
  have hs : ReachableWhile (system sampleExternals) (fun s a => ¬ ExpiresSilently s a) s := by
    refine reachableWhile_of_run ?_ (.init (sampleInstance_init sampleExternals)) hrun
    rintro t a hkeeps ⟨i, u, rfl, -⟩
    cases hkeeps
  obtain ⟨-, hreports, -⟩ := state_cause_agree hs
  exact ⟨s, hrun, r, hr, hcause, (hreports ⟨1⟩ 0 r hlookup hr (by rw [hcause]; nofun)).1⟩

/-- The connection takes longer than the idle budget. -/
def expiredConnecting : List Action :=
  [.generateStream sampleGenerate (.ok []), .request 0 .startGeneration,
    .request 0 (.stream (.task .run)), .request 0 (.stream (.task .pollToken)),
    .request 0 (.stream (.task .pollClosed)), .request 0 (.stream (.task .pollElapsed))]

/-- The request has a cause, and still reports that it is starting. -/
theorem expiry_disagrees :
    ¬ ∀ (ext : Externals) (s : State), Reachable (system ext) s → Agrees s := by
  intro hall
  obtain ⟨s, hrun, r, hr, hcause, hstate⟩ :
      ∃ s, (system sampleExternals).run sampleInstance expiredConnecting = some s ∧
        ∃ r, s.admitted[0]? = some r ∧
          r.handle.cancellationCause = some .streamIdleTimeout ∧ r.handle.state = .starting :=
    ⟨_, rfl, _, rfl, rfl, rfl⟩
  have hs := reachable_of_run (.init (sampleInstance_init sampleExternals)) hrun
  rcases (hall _ s hs 0 r hr).1 (by rw [hcause]; nofun) with hcancelling | hterminal
  · rw [hstate] at hcancelling
    cases hcancelling
  · rw [RequestHandle.isTerminal, hstate] at hterminal
    cases hterminal

end LoadedModel
end MehoyRuntime.Runtime
