import MehoyRuntime.Stream.Execute

/-!
# The invariant of a streaming request

`Sound` ties the program point of the execution task to the handle, the channel and the
consumer. It is kept by every step of every party. The lemmas below follow the ways a
step can change the channel; `taskStep_sound` then only sorts the steps of the task
under them.
-/

namespace MehoyRuntime.Stream
open MehoyRuntime.Core TransitionSystem

namespace Pc

/-- The request is being carried out, and its sink is still whole. -/
def working : Pc → Bool
  | .start | .awaiting _ _ | .building | .handling _ | .emitting _ _ | .closing _ => true
  | .cancelling _ | .finishing _ _ | .announcing _ | .done | .aborted => false

def ended : Pc → Bool
  | .done | .aborted => true
  | _ => false

def settled : Pc → Bool
  | .announcing _ | .done | .aborted => true
  | _ => false

/-- The cause the task is about to end the request with. -/
def told : Pc → Option CancellationCause
  | .closing (.error (.cancelled cause)) | .cancelling cause => some cause
  | _ => none

theorem ended_of_working {p : Pc} (h : p.working = true) : p.ended = false := by
  cases p <;> simp_all [working, ended]

theorem settled_of_working {p : Pc} (h : p.working = true) : p.settled = false := by
  cases p <;> simp_all [working, settled]

end Pc

def Fits : RequestState → StreamItem → Prop
  | .completed, .ok (.completed _ _) | .cancelled, .ok (.cancelled _ _) | .failed, .error _ => True
  | _, _ => False

def Matches (h : RequestHandle) : StreamItem → Prop
  | .ok (.completed _ _) => h.state = .completed
  | .ok (.cancelled _ cause) => h.state = .cancelled ∧ h.cancellationCause = some cause
  | .error _ => h.state = .failed
  | .ok (.started _) | .ok (.textDelta _ _) => True

theorem matches_terminal {h : RequestHandle} {item : StreamItem} (hm : Matches h item)
    (ht : isTerminalItem item = true) : h.isTerminal = true := by
  unfold RequestHandle.isTerminal
  rcases item with error | event
  · simp only [Matches] at hm
    rw [hm]
    rfl
  · cases event with
    | started => cases ht
    | textDelta => cases ht
    | completed =>
      simp only [Matches] at hm
      rw [hm]
      rfl
    | cancelled =>
      simp only [Matches] at hm
      rw [hm.1]
      rfl

theorem matches_of_not_terminal {h : RequestHandle} {item : StreamItem}
    (ht : isTerminalItem item = false) : Matches h item := by
  rcases item with error | event
  · cases ht
  · cases event with
    | started => trivial
    | textDelta => trivial
    | completed => cases ht
    | cancelled => cases ht

theorem Matches.later {h h' : RequestHandle} {item : StreamItem} (hm : Matches h item)
    (hl : h.Later h') : Matches h' item := by
  cases ht : isTerminalItem item with
  | false => exact matches_of_not_terminal ht
  | true =>
    have hs := hl.terminal (matches_terminal hm ht)
    rcases item with error | event
    · exact hs.trans hm
    · cases event with
      | started => trivial
      | textDelta => trivial
      | completed => exact hs.trans hm
      | cancelled requestId cause => exact ⟨hs.trans hm.1, hl.cause cause hm.2⟩

structure Sound (c : Channel) (p : Pc) : Prop where
  alive : c.senderAlive = !p.ended
  status : c.handle.isTerminal = p.settled
  sink : p.working = true → c.sinkFinished = false
  bounded : c.queue.length ≤ generationStreamBuffer
  dropped : c.receiverAlive = false → c.queue = []
  /-- A cause the task acts on is the recorded one, unless nobody is left to be told. -/
  told : ∀ cause, p.told = some cause → c.receiverAlive = true →
    c.handle.cancellationCause = some cause
  fits : ∀ outcome item, p = .finishing outcome item → Fits outcome item ∧
    ∀ requestId cause, item = .ok (.cancelled requestId cause) → c.receiverAlive = true →
      c.handle.cancellationCause = some cause
  ready : ∀ item, p = .announcing item →
    isTerminalItem item = true ∧ (c.receiverAlive = true → Matches c.handle item)
  quiet : p.ended = false → ∀ item ∈ c.items, isTerminalItem item = false
  single : c.items.countP isTerminalItem ≤ 1
  matched : p ≠ .aborted → ∀ item ∈ c.items, Matches c.handle item
  reported : p = .done → c.receiverAlive = true →
    ∃ item ∈ c.items, isTerminalItem item = true
  finished : c.stream.finished = c.delivered.any isTerminalItem

namespace Sound
variable {c : Channel} {p : Pc}

theorem start {h : RequestHandle} (ht : h.isTerminal = false) :
    Sound (generationStream h) .start where
  alive := rfl
  status := ht
  sink _ := rfl
  bounded := by simp [generationStream, generationStreamBuffer]
  dropped hr := by cases hr
  told _ hc := by cases hc
  fits _ _ hp := by cases hp
  ready _ hp := by cases hp
  quiet _ item hi := by
    simp only [Channel.items, generationStream, List.nil_append, List.mem_singleton] at hi
    rw [hi]
    rfl
  single := by simp [Channel.items, generationStream, isTerminalItem]
  matched _ item hi := by
    simp only [Channel.items, generationStream, List.nil_append, List.mem_singleton] at hi
    rw [hi]
    trivial
  reported hp := by cases hp
  finished := rfl

theorem move (hs : Sound c p) (hp : p.working = true) {q : Pc} (hq : q.working = true)
    (htold : ∀ cause, q.told = some cause → c.receiverAlive = true →
      c.handle.cancellationCause = some cause) : Sound c q where
  alive := by rw [hs.alive, p.ended_of_working hp, q.ended_of_working hq]
  status := by rw [hs.status, p.settled_of_working hp, q.settled_of_working hq]
  sink _ := hs.sink hp
  bounded := hs.bounded
  dropped := hs.dropped
  told := htold
  fits _ _ he := by subst he; cases hq
  ready _ he := by subst he; cases hq
  quiet _ := hs.quiet (p.ended_of_working hp)
  single := hs.single
  matched _ := hs.matched (by rintro rfl; cases hp)
  reported he := by subst he; cases hq
  finished := hs.finished

theorem handle (hs : Sound c p) {h : RequestHandle} (hl : c.handle.Later h)
    (ht : h.isTerminal = c.handle.isTerminal) : Sound { c with handle := h } p where
  alive := hs.alive
  status := ht.trans hs.status
  sink := hs.sink
  bounded := hs.bounded
  dropped := hs.dropped
  told cause hc hr := hl.cause cause (hs.told cause hc hr)
  fits outcome item he :=
    ⟨(hs.fits outcome item he).1, fun requestId cause hi hr =>
      hl.cause cause ((hs.fits outcome item he).2 requestId cause hi hr)⟩
  ready item he := ⟨(hs.ready item he).1, fun hr => ((hs.ready item he).2 hr).later hl⟩
  quiet := hs.quiet
  single := hs.single
  matched hp item hi := (hs.matched hp item hi).later hl
  reported := hs.reported
  finished := hs.finished

theorem consume (hs : Sound c p) (hp : p.working = true) {q : Pc} (hq : q.working = false)
    (hset : q.settled = false)
    (htold : ∀ cause, q.told = some cause → c.receiverAlive = true →
      c.handle.cancellationCause = some cause)
    (hfits : ∀ outcome item, q = .finishing outcome item → Fits outcome item ∧
      ∀ requestId cause, item = .ok (.cancelled requestId cause) → c.receiverAlive = true →
        c.handle.cancellationCause = some cause) :
    Sound { c with sinkFinished := true } q where
  alive := by
    have hended : q.ended = false := by cases q <;> simp_all [Pc.settled, Pc.ended]
    rw [hended]
    exact hs.alive.trans (by rw [p.ended_of_working hp])
  status := by rw [hset]; exact hs.status.trans (p.settled_of_working hp)
  sink he := by rw [hq] at he; cases he
  bounded := hs.bounded
  dropped := hs.dropped
  told := htold
  fits := hfits
  ready _ he := by subst he; cases hset
  quiet _ := hs.quiet (p.ended_of_working hp)
  single := hs.single
  matched _ := hs.matched (by rintro rfl; cases hp)
  reported he := by subst he; cases hset
  finished := hs.finished

theorem cancelling {cause : CancellationCause} (hs : Sound c (.cancelling cause))
    (requestId : RequestId) :
    Sound { c with handle := (c.handle.requestCancellation cause).2 }
      (.finishing .cancelled (.ok (.cancelled requestId cause))) where
  alive := hs.alive
  status := (RequestHandle.requestCancellation_isTerminal c.handle cause).trans hs.status
  sink he := by cases he
  bounded := hs.bounded
  dropped := hs.dropped
  told _ he := by cases he
  fits outcome item he := by
    cases he
    refine ⟨trivial, fun _ cause' hi hr => ?_⟩
    cases hi
    exact (RequestHandle.later_requestCancellation c.handle cause).cause cause
      (hs.told cause rfl hr)
  ready _ he := by cases he
  quiet _ := hs.quiet rfl
  single := hs.single
  matched _ item hi := matches_of_not_terminal (hs.quiet rfl item hi)
  reported he := by cases he
  finished := hs.finished

theorem finishing {outcome : RequestState} {item : StreamItem}
    (hs : Sound c (.finishing outcome item)) :
    Sound { c with handle := (c.handle.finish outcome).2 } (.announcing item) where
  alive := hs.alive
  status := by
    have hfit := (hs.fits outcome item rfl).1
    have hout : outcome.isTerminal = true := by cases outcome <;> simp_all [Fits, RequestState.isTerminal]
    exact RequestHandle.finish_isTerminal hout c.handle
  sink he := by cases he
  bounded := hs.bounded
  dropped := hs.dropped
  told _ he := by cases he
  fits _ _ he := by cases he
  ready item' he := by
    cases he
    obtain ⟨hfit, hcause⟩ := hs.fits outcome item rfl
    rw [RequestHandle.finish_of_not_terminal hs.status]
    rcases item with error | event
    · cases outcome <;> simp_all [Fits, Matches, isTerminalItem]
    · cases event with
      | started => cases outcome <;> cases hfit
      | textDelta => cases outcome <;> cases hfit
      | completed => cases outcome <;> simp_all [Fits, Matches, isTerminalItem]
      | cancelled requestId cause =>
        have hc := hcause requestId cause rfl
        cases outcome <;> simp_all [Fits, Matches, isTerminalItem, RequestHandle.cancellationCause]
  quiet _ := hs.quiet rfl
  single := hs.single
  matched _ item' hi := matches_of_not_terminal (hs.quiet rfl item' hi)
  reported he := by cases he
  finished := hs.finished

theorem items_push (c : Channel) (item : StreamItem) :
    Channel.items { c with queue := c.queue ++ [item] } = c.items ++ [item] := by
  simp only [Channel.items, List.append_assoc]

theorem emit (hs : Sound c p) (hp : p.working = true) {item : StreamItem}
    (ht : isTerminalItem item = false) (hroom : c.queue.length < generationStreamBuffer)
    (hr : c.receiverAlive = true) {q : Pc} (hq : q.working = true)
    (hqt : q.told = none) : Sound { c with queue := c.queue ++ [item] } q := by
  have hquiet : ∀ item' ∈ Channel.items { c with queue := c.queue ++ [item] },
      isTerminalItem item' = false := by
    intro item' hi
    rw [items_push, List.mem_append, List.mem_singleton] at hi
    rcases hi with hi | rfl
    · exact hs.quiet (p.ended_of_working hp) item' hi
    · exact ht
  refine
    { alive := by rw [q.ended_of_working hq, ← p.ended_of_working hp]; exact hs.alive
      status := by rw [q.settled_of_working hq, ← p.settled_of_working hp]; exact hs.status
      sink := fun _ => hs.sink hp
      bounded := ?_
      dropped := fun hr' => ?_
      told := fun cause hc => by rw [hqt] at hc; cases hc
      fits := fun _ _ he => by subst he; cases hq
      ready := fun _ he => by subst he; cases hq
      quiet := fun _ => hquiet
      single := ?_
      matched := fun _ item' hi => matches_of_not_terminal (hquiet item' hi)
      reported := fun he => by subst he; cases hq
      finished := hs.finished }
  · simp only [List.length_append, List.length_singleton]
    omega
  · rw [hr] at hr'
    cases hr'
  · have hzero := List.countP_eq_zero.mpr fun item' hi => by simpa using hquiet item' hi
    omega

theorem announce {c' : Channel} {item : StreamItem} {alive : Bool}
    (hs : Sound c (.announcing item)) (hsend : c.send item = some (alive, c')) :
    Sound c'.dropSink .done := by
  obtain ⟨ht, hmatch⟩ := hs.ready item rfl
  have hquiet := hs.quiet rfl
  have hzero : c.items.countP isTerminalItem = 0 :=
    List.countP_eq_zero.mpr fun item' hi => by simpa using hquiet item' hi
  have hkeep : ∀ d : Channel, d.handle = c.handle → d.dropSink.handle = c.handle := by
    intro d hd
    unfold Channel.dropSink
    cases d.sinkFinished
    · exact (RequestHandle.finish_of_terminal (hd ▸ hs.status) .failed).trans hd
    · exact hd
  rcases Channel.send_cases hsend with ⟨hr, -, hc'⟩ | ⟨hr, hroom, -, rfl⟩
  · subst c'
    have hh := hkeep c rfl
    exact
      { alive := rfl
        status := by rw [hh]; exact hs.status
        sink := fun he => by cases he
        bounded := hs.bounded
        dropped := hs.dropped
        told := fun _ he => by cases he
        fits := fun _ _ he => by cases he
        ready := fun _ he => by cases he
        quiet := fun he => by cases he
        single := hs.single
        matched := fun _ item' hi => matches_of_not_terminal (hquiet item' hi)
        reported := fun _ hr' => by rw [show c.receiverAlive = true from hr'] at hr; cases hr
        finished := hs.finished }
  · have hh := hkeep { c with queue := c.queue ++ [item] } rfl
    have hitems : (Channel.dropSink { c with queue := c.queue ++ [item] }).items =
        c.items ++ [item] := items_push c item
    exact
      { alive := rfl
        status := by rw [hh]; exact hs.status
        sink := fun he => by cases he
        bounded := by
          simp only [Channel.dropSink, List.length_append, List.length_singleton]
          omega
        dropped := fun hr' => by rw [show c.receiverAlive = false from hr'] at hr; cases hr
        told := fun _ he => by cases he
        fits := fun _ _ he => by cases he
        ready := fun _ he => by cases he
        quiet := fun he => by cases he
        single := by
          rw [hitems, List.countP_append, hzero, List.countP_singleton]
          split <;> omega
        matched := fun _ item' hi => by
          rw [hh]
          rw [hitems, List.mem_append, List.mem_singleton] at hi
          rcases hi with hi | rfl
          · exact matches_of_not_terminal (hquiet item' hi)
          · exact hmatch hr
        reported := fun _ _ => ⟨item, by rw [hitems]; simp, ht⟩
        finished := hs.finished }

theorem read {item : StreamItem} {rest : List StreamItem} (hs : Sound c p)
    (hq : c.queue = item :: rest) (hf : c.stream.finished = false) :
    Sound
      { c with
        queue := rest
        stream := c.stream.observe item
        delivered := c.delivered ++ [item] } p := by
  have hitems : ∀ stream, Channel.items { c with
      queue := rest
      stream := stream
      delivered := c.delivered ++ [item] } = c.items := by
    intro stream
    simp only [Channel.items, hq, List.append_assoc, List.singleton_append]
  exact
    { alive := hs.alive
      status := hs.status
      sink := hs.sink
      bounded := by
        have hb := hs.bounded
        rw [hq, List.length_cons] at hb
        exact Nat.le_of_succ_le hb
      dropped := fun hr => by
        have he := hs.dropped hr
        rw [hq] at he
        cases he
      told := hs.told
      fits := hs.fits
      ready := hs.ready
      quiet := fun he => by rw [hitems]; exact hs.quiet he
      single := by rw [hitems]; exact hs.single
      matched := fun he => by rw [hitems]; exact hs.matched he
      reported := fun he hr => by rw [hitems]; exact hs.reported he hr
      finished := by
        rw [Channel.observe_finished, List.any_append, ← hs.finished, hf]
        simp }

/-- Nothing is left to read and nobody is left to write. After a task that came to its
end this does not happen: its terminal item would have been read. -/
theorem readGone (hs : Sound c p) (hq : c.queue = []) (halive : c.senderAlive = false)
    (hf : c.stream.finished = false) (hr : c.receiverAlive = true) :
    p = .aborted ∧
    Sound
      { c with
        handle := (c.handle.finish .failed).2
        stream := { c.stream with finished := true }
        delivered := c.delivered ++ [Channel.producerGone] } p := by
  have hitems : c.items = c.delivered := by rw [Channel.items, hq, List.append_nil]
  have hnone : c.delivered.any isTerminalItem = false := by rw [← hs.finished, hf]
  have hended : p.ended = true := by simpa [halive] using hs.alive
  have hp : p = .aborted := by
    cases p with
    | done =>
      obtain ⟨item, hi, ht⟩ := hs.reported rfl hr
      rw [hitems] at hi
      rw [List.any_eq_false] at hnone
      exact absurd ht (hnone item hi)
    | aborted => rfl
    | _ => cases hended
  subst hp
  refine ⟨rfl, ?_⟩
  have hkeep := RequestHandle.finish_of_terminal hs.status .failed
  exact
    { alive := hs.alive
      status := by rw [hkeep]; exact hs.status
      sink := fun he => by cases he
      bounded := hs.bounded
      dropped := hs.dropped
      told := fun _ he => by cases he
      fits := fun _ _ he => by cases he
      ready := fun _ he => by cases he
      quiet := fun he => by cases he
      single := by
        have hzero : c.delivered.countP isTerminalItem = 0 := by
          rw [List.countP_eq_zero]
          rw [List.any_eq_false] at hnone
          exact hnone
        simp only [Channel.items, hq, List.append_nil, List.countP_append, hzero]
        simp [Channel.producerGone, isTerminalItem]
      matched := fun he => absurd rfl he
      reported := fun he => by cases he
      finished := by simp [Channel.producerGone, isTerminalItem] }

theorem dropStream (hs : Sound c p) : Sound c.dropStream p := by
  have hsub : ∀ item ∈ c.dropStream.items, item ∈ c.items := by
    intro item hi
    simp only [Channel.items, Channel.dropStream, List.append_nil] at hi
    exact List.mem_append_left _ hi
  exact
    { alive := hs.alive
      status := hs.status
      sink := hs.sink
      bounded := Nat.zero_le _
      dropped := fun _ => rfl
      told := fun _ _ hr => by cases hr
      fits := fun outcome item he =>
        ⟨(hs.fits outcome item he).1, fun _ _ _ hr => by cases hr⟩
      ready := fun item he => ⟨(hs.ready item he).1, fun hr => by cases hr⟩
      quiet := fun he item hi => hs.quiet he item (hsub item hi)
      single := by
        have hle : c.dropStream.items.countP isTerminalItem ≤ c.items.countP isTerminalItem := by
          simp only [Channel.items, Channel.dropStream, List.append_nil, List.countP_append]
          omega
        exact Nat.le_trans hle hs.single
      matched := fun he item hi => hs.matched he item (hsub item hi)
      reported := fun _ hr => by cases hr
      finished := hs.finished }

theorem abort (hs : Sound c p) (hp : p.working = true ∨ p.settled = true) :
    Sound c.dropSink .aborted := by
  have hterm : c.dropSink.handle.isTerminal = true := by
    rcases hp with hw | hset
    · simp only [Channel.dropSink, hs.sink hw, Bool.false_eq_true, if_false]
      exact RequestHandle.finish_isTerminal rfl c.handle
    · exact (Channel.dropSink_later c).isTerminal (hs.status.trans hset)
  exact
    { alive := rfl
      status := hterm
      sink := fun he => by cases he
      bounded := hs.bounded
      dropped := hs.dropped
      told := fun _ he => by cases he
      fits := fun _ _ he => by cases he
      ready := fun _ he => by cases he
      quiet := fun he => by cases he
      single := hs.single
      matched := fun he => absurd rfl he
      reported := fun he => by cases he
      finished := hs.finished }

end Sound

/-! ### The steps -/

namespace State
variable {ext : Externals} {s s' : State}

/-- `Sound` of a state is about its channel and its program point only. -/
def Sound (s : State) : Prop := Stream.Sound s.chan s.pc

theorem Sound.goto (hs : s.Sound) (hp : s.pc.working = true) {q : Pc} (hq : q.working = true)
    (hqt : q.told = none) : (s.goto q).Sound :=
  hs.move hp hq fun cause hc => by rw [show q.told = some cause from hc] at hqt; cases hqt

theorem Sound.cancel (hs : s.Sound) (hp : s.pc.working = true) {cause : CancellationCause}
    (hc : s.chan.receiverAlive = true → s.chan.handle.cancellationCause = some cause) :
    (s.cancel cause).Sound := by
  unfold State.cancel consumeSink
  rw [hs.sink hp]
  exact hs.consume hp rfl rfl (fun _ he hr => by cases he; exact hc hr) fun _ _ he => by cases he

theorem Sound.fail (hs : s.Sound) (hp : s.pc.working = true) (error : GenerationStreamError) :
    (s.fail error).Sound := by
  unfold State.fail consumeSink
  rw [hs.sink hp]
  refine hs.consume hp rfl rfl (fun _ he => by cases he) fun _ _ he => ?_
  cases he
  exact ⟨trivial, fun _ _ he => by cases he⟩

theorem Sound.complete (hs : s.Sound) (hp : s.pc.working = true) (summary : GenerationSummary) :
    (s.complete summary).Sound := by
  unfold State.complete consumeSink
  rw [hs.sink hp]
  refine hs.consume hp rfl rfl (fun _ he => by cases he) fun _ _ he => ?_
  cases he
  exact ⟨trivial, fun _ _ he => by cases he⟩

theorem Sound.interrupted (hs : s.Sound) (hp : s.pc.working = true) (point : AwaitPoint)
    {cause : CancellationCause}
    (hc : s.chan.receiverAlive = true → s.chan.handle.cancellationCause = some cause) :
    (s.interrupted point cause).Sound := by
  cases point with
  | reading => exact hs.move hp rfl fun _ he hr => by cases he; exact hc hr
  | connecting | handshaking | sending | collecting =>
    exact Sound.cancel (s := s.release) hs hp hc

theorem Sound.withHandle (hs : s.Sound) {h : RequestHandle} (hl : s.chan.handle.Later h)
    (ht : h.isTerminal = s.chan.handle.isTerminal) : (s.withHandle h).Sound :=
  Stream.Sound.handle hs hl ht

theorem Sound.elapsed (hs : s.Sound) (hp : s.pc.working = true) (point : AwaitPoint) :
    (s.elapsed point).Sound := by
  have hcause := RequestHandle.cancelToken_cause s.chan.handle .streamIdleTimeout
  refine Sound.interrupted (s := s.withHandle _)
    (hs.withHandle (RequestHandle.later_cancelToken _ _) rfl) hp point fun _ => ?_
  simp only [State.withHandle, hcause, Option.getD_some]

theorem Sound.framed (hs : s.Sound) (hp : s.pc.working = true)
    (outcome : Option (Except String (Option (List UInt8)))) : (s.framed outcome).Sound := by
  unfold State.framed
  split
  · exact hs.goto hp rfl rfl
  · exact hs.goto hp rfl rfl
  · exact hs.goto hp rfl rfl
  · split
    · exact hs.move hp rfl fun _ he => by cases he
    · exact hs.move hp rfl fun _ he => by cases he

theorem Sound.resumed (hs : s.Sound) (hp : s.pc.working = true) {point : AwaitPoint}
    {outcome : WorkOutcome} (h : s.resumed ext point outcome = some s') : s'.Sound := by
  unfold State.resumed at h
  split at h <;> cases h
  · exact Sound.fail (s := s.release) hs hp _
  · exact hs.goto hp rfl rfl
  · exact Sound.fail (s := s.release) hs hp _
  · exact hs.move hp rfl fun _ he => by cases he
  · exact Sound.fail (s := s.release) hs hp _
  · rename_i status
    have hrun := hs.withHandle (RequestHandle.later_markRunning _)
      (RequestHandle.markRunning_isTerminal s.chan.handle)
    exact Stream.Sound.move hrun hp rfl fun _ he => by cases he
  · exact Sound.fail (s := s.release) hs hp _
  · exact Sound.fail (s := s.release) hs hp _
  · exact hs.framed hp _

theorem Sound.handlePayloads (hs : s.Sound) (hp : s.pc.working = true)
    (payloads : List String) : (s.handlePayloads ext payloads).Sound := by
  unfold State.handlePayloads
  split
  · exact hs.goto hp rfl rfl
  · split
    · exact hs.goto hp rfl rfl
    · exact hs.goto hp rfl rfl
    · exact hs.goto hp rfl rfl
    · rename_i text terminal _
      have hopen := hs.sink hp
      dsimp only
      split
      · exact hs.move hp rfl fun _ he => by cases he
      · rename_i hdelta
        simp only [Channel.delta, hopen, Bool.false_eq_true, if_false] at hdelta
        split at hdelta <;> cases hdelta
      · exact hs.move hp rfl fun _ he => by cases he

theorem Sound.close (hs : s.Sound) (hp : s.pc.working = true)
    {outcome : Except Interruption EndOfBody}
    (hc : ∀ cause, outcome = .error (.cancelled cause) → s.chan.receiverAlive = true →
      s.chan.handle.cancellationCause = some cause) : (s.close outcome).Sound := by
  unfold State.close
  split
  · rename_i cause
    exact Sound.cancel (s := s.release) hs hp (hc cause rfl)
  · exact Sound.fail (s := s.release) hs hp _
  · dsimp only
    split
    · exact Sound.complete (s := s.release) hs hp _
    · exact Sound.fail (s := s.release) hs hp _

theorem taskStep_sound {a : TaskAction} (hs : s.Sound)
    (h : s.taskStep ext s.pc a = some s') : s'.Sound := by
  have hworking : ∀ {pc : Pc}, s.pc = pc → pc.working = true → s.pc.working = true := by
    rintro pc rfl hp
    exact hp
  cases taskStep_cases h with
  | unencoded hpc hbody => exact hs.fail (hworking hpc rfl) _
  | started hpc hbody => exact hs.move (hworking hpc rfl) rfl fun _ he => by cases he
  | told hpc hcause => exact hs.interrupted (hworking hpc rfl) _ fun _ => hcause
  | untold hpc hcause => exact hs.goto (hworking hpc rfl) rfl rfl
  | held hpc halive => exact hs.goto (hworking hpc rfl) rfl rfl
  | abandoned hpc hgone =>
    refine hs.interrupted (hworking hpc rfl) _ fun hr => ?_
    rw [hgone] at hr
    cases hr
  | resumed hpc hresumed => exact hs.resumed (hworking hpc rfl) hresumed
  | elapsed hpc => exact hs.elapsed (hworking hpc rfl) _
  | pending hpc => exact hs.goto (hworking hpc rfl) rfl rfl
  | unbuilt hpc => exact Sound.fail (s := s.release) hs (hworking hpc rfl) _
  | built hpc => exact hs.goto (hworking hpc rfl) rfl rfl
  | handled hpc => exact hs.handlePayloads (hworking hpc rfl) _
  | emitted hpc hsend =>
    rcases Channel.send_cases hsend with ⟨-, halive, -⟩ | ⟨hr, hroom, -, rfl⟩
    · cases halive
    · exact Stream.Sound.emit hs (hworking hpc rfl) rfl hroom hr rfl rfl
  | unheard hpc hsend =>
    rcases Channel.send_cases hsend with ⟨hr, -, rfl⟩ | ⟨-, -, halive, -⟩
    · refine hs.move (hworking hpc rfl) rfl fun _ _ hr' => ?_
      rw [hr] at hr'
      cases hr'
    · cases halive
  | closed hpc =>
    refine hs.close (hworking hpc rfl) fun cause he hr => hs.told cause ?_ hr
    rw [hpc, he]
    rfl
  | @cancelled cause hpc =>
    have hs' : Stream.Sound s.chan (.cancelling cause) := hpc ▸ hs
    exact hs'.cancelling s.requestId
  | @finished outcome item hpc =>
    have hs' : Stream.Sound s.chan (.finishing outcome item) := hpc ▸ hs
    exact hs'.finishing
  | @announced item alive chan hpc hsend =>
    have hs' : Stream.Sound s.chan (.announcing item) := hpc ▸ hs
    exact hs'.announce hsend

end State

theorem step_sound {ext : Externals} {s s' : State} {a : Action} (hs : s.Sound)
    (h : step ext s a = some s') : s'.Sound := by
  cases State.step_cases h with
  | task htask => exact State.taskStep_sound hs htask
  | aborted hsuspended =>
    refine Sound.abort hs ?_
    unfold State.suspended at hsuspended
    split at hsuspended <;> simp_all [Pc.working, Pc.settled]
  | told =>
    exact hs.withHandle (RequestHandle.later_requestCancellation _ _)
      (RequestHandle.requestCancellation_isTerminal _ _)
  | finished => exact hs
  | read _ hunfinished hqueue => exact Sound.read hs hqueue hunfinished
  | gone halive hunfinished hqueue hgone =>
    exact (Sound.readGone hs hqueue hgone hunfinished halive).2
  | dropped => exact Sound.dropStream hs

theorem accepted_not_terminal {h : RequestHandle} (ha : Accepted h) : h.isTerminal = false := by
  obtain ⟨id, rfl | ⟨cause, rfl⟩⟩ := ha
  · rfl
  · exact RequestHandle.requestCancellation_isTerminal _ _

theorem init_sound {ext : Externals} {s : State} (h : (system ext).init s) : s.Sound := by
  obtain ⟨handle, body, ha, rfl⟩ := h
  exact Sound.start (accepted_not_terminal ha)

theorem reachable_sound {ext : Externals} {s : State} (h : Reachable (system ext) s) : s.Sound :=
  h.invariant (fun _ => init_sound) fun _ _ _ _ hs _ hst => step_sound hs hst

end MehoyRuntime.Stream
