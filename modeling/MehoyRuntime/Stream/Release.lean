import MehoyRuntime.Stream.Outcome

/-!
# The transport is given up before the end is announced

What the task holds of its request's transport at each of its points. Every way out of
`execute` and `read` passes a release before it consumes the sink, and only a consumed
sink ends the handle or sends a terminal item. A task that is dropped would only detach
its connection task; nothing drops it, as its handle is not kept.
-/

namespace MehoyRuntime.Stream
open MehoyRuntime.Core TransitionSystem

/-- Nothing of the transport is held any more: no pending or open connection, no body, and
a connection task is aborted where there was one. -/
structure Transport.Released (t : Transport) : Prop where
  connection : t.connection = false
  pump : t.pump ≠ .running
  body : t.body = false

theorem Transport.release_released (t : Transport) : t.release.Released := by
  refine ⟨rfl, ?_, rfl⟩
  rw [Transport.release]
  cases t.pump <;> exact nofun

/-- The points at which the task holds nothing of the transport: before it connects, and
from the start of the methods that consume the sink on. -/
def Pc.released : Pc → Bool
  | .start | .cancelling _ | .finishing _ _ | .announcing _ | .done => true
  | _ => false

namespace State
variable {ext : Externals} {s s' : State}

def Released (s : State) : Prop := s.pc.released = true → s.transport.Released

theorem released_goto {pc : Pc} (hpc : pc.released = false) : (s.goto pc).Released := by
  intro h
  rw [State.goto, hpc] at h
  cases h

theorem released_consumeSink (h : s.transport.Released) (pc : Pc) : (s.consumeSink pc).Released := by
  unfold consumeSink
  split
  · exact fun _ => h
  · exact fun _ => h

theorem released_interrupted (point : AwaitPoint) (cause : CancellationCause) :
    (s.interrupted point cause).Released := by
  cases point with
  | reading => exact released_goto rfl
  | connecting | handshaking | sending | collecting =>
    exact released_consumeSink s.transport.release_released _

theorem released_framed (outcome : Option (Except String (Option (List UInt8)))) :
    (s.framed outcome).Released := by
  rcases outcome with _ | detail | _ | chunk
  · exact released_goto rfl
  · exact released_goto rfl
  · exact released_goto rfl
  · intro h
    unfold framed at h
    rcases hpush : s.decoder.push chunk with ⟨detail | payloads, decoder⟩
    · simp only [hpush] at h
      cases h
    · simp only [hpush] at h
      cases h

theorem released_resumed {point : AwaitPoint} {outcome : WorkOutcome}
    (h : s.resumed ext point outcome = some s') : s'.Released := by
  unfold resumed at h
  split at h
  case h_2 | h_4 =>
    cases h
    exact fun hpc => by cases hpc
  case h_6 =>
    cases h
    unfold answered
    exact fun hpc => by cases hpc
  case h_9 =>
    cases h
    exact released_framed _
  case h_10 => cases h
  all_goals
    cases h
    exact released_consumeSink s.transport.release_released _

theorem released_handlePayloads (payloads : List String) :
    (s.handlePayloads ext payloads).Released := by
  cases payloads with
  | nil => exact released_goto rfl
  | cons payload rest =>
    rw [handlePayloads]
    cases readPayload ext s.terminal payload with
    | marked => exact released_goto (s := s) rfl
    | malformed detail => exact released_goto (s := s) rfl
    | skipped => exact released_goto (s := s) rfl
    | delta text terminal =>
      simp only
      split
      · exact released_goto rfl
      · exact released_goto rfl
      · exact released_goto rfl

theorem released_close (outcome : Except Interruption EndOfBody) : (s.close outcome).Released := by
  have hreleased := s.transport.release_released
  unfold close
  rcases outcome with ⟨cause | error⟩ | ending
  · exact released_consumeSink hreleased _
  · exact released_consumeSink hreleased _
  · simp only
    split
    · exact released_consumeSink hreleased _
    · exact released_consumeSink hreleased _

theorem released_taskStep {a : TaskAction} (hs : s.Released) (h : s.taskStep ext s.pc a = some s') :
    s'.Released := by
  cases taskStep_cases h with
  | unencoded hpc => exact released_consumeSink (hs (by rw [hpc]; rfl)) _
  | started => exact fun hpc => by cases hpc
  | told => exact released_interrupted _ _
  | untold => exact released_goto rfl
  | held => exact released_goto rfl
  | abandoned => exact released_interrupted _ _
  | resumed _ hresumed => exact released_resumed hresumed
  | elapsed => exact released_interrupted _ _
  | pending => exact released_goto rfl
  | unbuilt => exact released_consumeSink s.transport.release_released _
  | built => exact released_goto rfl
  | handled => exact released_handlePayloads _
  | emitted => exact fun hpc => by cases hpc
  | unheard => exact fun hpc => by cases hpc
  | closed => exact released_close _
  | cancelled hpc => exact fun _ => hs (by rw [hpc]; rfl)
  | finished hpc => exact fun _ => hs (by rw [hpc]; rfl)
  | announced hpc => exact fun _ => hs (by rw [hpc]; rfl)

theorem released_step {a : Action} (hs : s.Released) (ha : a ≠ .abort)
    (h : step ext s a = some s') : s'.Released := by
  cases step_cases h with
  | task htask => exact released_taskStep hs htask
  | aborted => exact absurd rfl ha
  | told => exact hs
  | finished => exact hs
  | read => exact hs
  | gone => exact hs
  | dropped => exact hs

end State

def Undropped (_ : State) (a : Action) : Prop := a ≠ .abort

variable {ext : Externals} {s : State}

theorem undropped_inv (hs : ReachableWhile (system ext) Undropped s) :
    s.Released ∧ s.pc ≠ .aborted := by
  refine hs.invariant (I := fun s => s.Released ∧ s.pc ≠ .aborted) ?_ ?_
  · rintro s ⟨handle, body, -, rfl⟩
    exact ⟨fun _ => ⟨rfl, nofun, rfl⟩, nofun⟩
  · intro s s' a _ hinv ha hst
    exact ⟨State.released_step hinv.1 ha hst, step_not_aborted ha hinv.2 hst⟩

/-- A handle that has ended, or a terminal item, is past the release. -/
theorem ended_released (hsound : s.Sound) (hkept : s.pc ≠ .aborted)
    (hend : s.chan.handle.isTerminal = true ∨ ∃ item ∈ s.chan.items, isTerminalItem item = true) :
    s.pc.released = true := by
  rcases hend with hterminal | ⟨item, hitem, hterminal⟩
  · have hsettled : s.pc.settled = true := hsound.status.symm.trans hterminal
    cases hpc : s.pc with
    | aborted => exact absurd hpc hkept
    | announcing item => rfl
    | done => rfl
    | _ =>
      rw [hpc] at hsettled
      cases hsettled
  · have hended : s.pc.ended = true := by
      by_contra hopen
      have hquiet := hsound.quiet (Bool.eq_false_iff.mpr hopen) item hitem
      rw [hterminal] at hquiet
      cases hquiet
    cases hpc : s.pc with
    | aborted => exact absurd hpc hkept
    | done => rfl
    | _ =>
      rw [hpc] at hended
      cases hended

/-- By the time the request has ended, or a terminal item is in the channel, the task has
given up everything it held of the transport. -/
theorem released_before_end (hs : ReachableWhile (system ext) Undropped s)
    (hend : s.chan.handle.isTerminal = true ∨ ∃ item ∈ s.chan.items, isTerminalItem item = true) :
    s.transport.Released := by
  obtain ⟨hreleased, hkept⟩ := undropped_inv hs
  exact hreleased (ended_released (reachable_sound hs.reachable) hkept hend)

def stoppedWhileSending : List Action :=
  [.task .run, .task .pollToken, .task .pollClosed, .task (.pollWork (.connected (.ok ()))),
    .task .pollToken, .task .pollClosed, .task (.pollWork (.handshaken (.ok ()))),
    .task (.built (.ok ())), .requestCancellation .user, .task .pollToken, .task .run, .task .run]

/-- A request that is stopped while the backend reads its input has ended on its handle, and
its connection task is aborted. -/
theorem released_before_end_stopped :
    ∃ s, (system sampleExternals).runWhile (fun _ a => decide (a ≠ .abort)) sampleRequest
        stoppedWhileSending = some s ∧
      s.chan.handle.isTerminal = true ∧ s.transport.pump = .aborted ∧ s.transport.Released := by
  obtain ⟨s, hrun, hterminal, hpump⟩ : ∃ s, (system sampleExternals).runWhile
      (fun _ a => decide (a ≠ .abort)) sampleRequest stoppedWhileSending = some s ∧
      s.chan.handle.isTerminal = true ∧ s.transport.pump = .aborted := ⟨_, rfl, rfl, rfl⟩
  have hs : ReachableWhile (system sampleExternals) Undropped s :=
    reachableWhile_of_run (fun _ a h => (of_decide_eq_true h : a ≠ .abort)) (.init sampleRequest_init) hrun
  exact ⟨s, hrun, hterminal, hpump, released_before_end hs (.inl hterminal)⟩

end MehoyRuntime.Stream
