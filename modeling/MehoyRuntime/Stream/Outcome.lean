import MehoyRuntime.Stream.Invariant

/-!
# How a streaming request ends

One outcome, the one its stream reports; and where a request that was told to stop can
still be held up.
-/

namespace MehoyRuntime.Stream
open MehoyRuntime.Core TransitionSystem
variable {ext : Externals}

/-! ### What a step of the task does to the channel -/

structure Follows (s s' : State) : Prop where
  later : s.chan.handle.Later s'.chan.handle
  kept : s'.pc ≠ .aborted

/-- A step that sends nothing. A delta that is to be sent next has text. -/
structure Silent (s s' : State) : Prop extends Follows s s' where
  stream : s'.chan.stream = s.chan.stream
  delivered : s'.chan.delivered = s.chan.delivered
  queue : s'.chan.queue = s.chan.queue
  emitting : ∀ text rest, s'.pc = .emitting text rest → text ≠ ""

/-- A step that sends an item, or finds that nobody receives it any more. -/
structure Spoken (s s' : State) (item : StreamItem) : Prop extends Follows s s' where
  stream : s'.chan.stream = s.chan.stream
  delivered : s'.chan.delivered = s.chan.delivered
  queue : s'.chan.queue = s.chan.queue ∨ s'.chan.queue = s.chan.queue ++ [item]
  emitting : ∀ text rest, s'.pc ≠ .emitting text rest

/-- Where the task neither is aborted nor about to send a delta. -/
def Pc.plain : Pc → Bool
  | .aborted | .emitting _ _ => false
  | _ => true

theorem Pc.not_aborted_of_plain {pc : Pc} (h : pc.plain = true) : pc ≠ .aborted := by
  rintro rfl
  cases h

theorem Pc.not_emitting_of_plain {pc : Pc} (h : pc.plain = true) (text : String)
    (rest : List String) : pc ≠ .emitting text rest := by
  rintro rfl
  cases h

namespace State
variable {s s' : State}

theorem silent_of_chan (hchan : s'.chan = s.chan) (hpc : s'.pc.plain = true) : Silent s s' where
  later := hchan ▸ .refl _
  kept := Pc.not_aborted_of_plain hpc
  stream := by rw [hchan]
  delivered := by rw [hchan]
  queue := by rw [hchan]
  emitting text rest hp := absurd hp (Pc.not_emitting_of_plain hpc text rest)

theorem silent_withHandle {h : RequestHandle} (hlater : s.chan.handle.Later h)
    (hchan : s'.chan = { s.chan with handle := h }) (hpc : s'.pc.plain = true) : Silent s s' where
  later := hchan ▸ hlater
  kept := Pc.not_aborted_of_plain hpc
  stream := by rw [hchan]
  delivered := by rw [hchan]
  queue := by rw [hchan]
  emitting text rest hp := absurd hp (Pc.not_emitting_of_plain hpc text rest)

theorem silent_consumeSink (s : State) {pc : Pc} (h : pc.plain = true) :
    Silent s (s.consumeSink pc) := by
  unfold consumeSink
  split
  · exact ⟨⟨Channel.dropSink_later s.chan, Pc.not_aborted_of_plain rfl⟩, rfl, rfl, rfl,
      fun text rest hp => absurd hp (Pc.not_emitting_of_plain rfl text rest)⟩
  · exact ⟨⟨.refl _, Pc.not_aborted_of_plain h⟩, rfl, rfl, rfl,
      fun text rest hp => absurd hp (Pc.not_emitting_of_plain h text rest)⟩

theorem silent_cancel (s : State) (cause : CancellationCause) : Silent s (s.cancel cause) :=
  s.silent_consumeSink rfl

theorem silent_fail (s : State) (error : GenerationStreamError) : Silent s (s.fail error) :=
  s.silent_consumeSink rfl

theorem silent_complete (s : State) (summary : GenerationSummary) :
    Silent s (s.complete summary) :=
  s.silent_consumeSink rfl

theorem Silent.released (h : Silent s.release s') : Silent s s' :=
  ⟨⟨h.later, h.kept⟩, h.stream, h.delivered, h.queue, h.emitting⟩

theorem silent_interrupted (s : State) (point : AwaitPoint) (cause : CancellationCause) :
    Silent s (s.interrupted point cause) := by
  cases point with
  | reading => exact silent_of_chan rfl rfl
  | connecting | handshaking | sending | collecting =>
    exact Silent.released (s.release.silent_cancel cause)

theorem silent_elapsed (s : State) (point : AwaitPoint) : Silent s (s.elapsed point) := by
  have hend := silent_interrupted
    (s.withHandle (s.chan.handle.cancelToken .streamIdleTimeout)) point
    ((s.chan.handle.cancelToken .streamIdleTimeout).cancellationCause.getD .streamIdleTimeout)
  exact ⟨⟨(RequestHandle.later_cancelToken s.chan.handle _).trans hend.later, hend.kept⟩,
    hend.stream, hend.delivered, hend.queue, hend.emitting⟩

theorem silent_framed (s : State) (outcome : Option (Except String (Option (List UInt8)))) :
    Silent s (s.framed outcome) := by
  unfold framed
  split
  · exact silent_of_chan rfl rfl
  · exact silent_of_chan rfl rfl
  · exact silent_of_chan rfl rfl
  · split <;> exact silent_of_chan rfl rfl

theorem silent_handlePayloads (s : State) (payloads : List String) :
    Silent s (s.handlePayloads ext payloads) := by
  unfold handlePayloads
  split
  · exact silent_of_chan rfl rfl
  · split
    · exact silent_of_chan rfl rfl
    · exact silent_of_chan rfl rfl
    · exact silent_of_chan rfl rfl
    · dsimp only
      split
      · exact silent_of_chan rfl rfl
      · exact silent_of_chan rfl rfl
      · rename_i hdelta
        refine ⟨⟨.refl _, fun hp => by cases hp⟩, rfl, rfl, rfl, fun text rest hp => ?_⟩
        cases hp
        exact Channel.delta_sending hdelta

theorem silent_resumed {point : AwaitPoint} {outcome : WorkOutcome}
    (h : s.resumed ext point outcome = some s') : Silent s s' := by
  unfold resumed at h
  split at h <;> cases h
  · exact Silent.released (s.release.silent_fail _)
  · exact silent_of_chan rfl rfl
  · exact Silent.released (s.release.silent_fail _)
  · exact silent_of_chan rfl rfl
  · exact Silent.released (s.release.silent_fail _)
  · rename_i status
    refine silent_withHandle (RequestHandle.later_markRunning s.chan.handle) rfl ?_
    rfl
  · exact Silent.released (s.release.silent_fail _)
  · exact Silent.released (s.release.silent_fail _)
  · exact s.silent_framed _

theorem silent_close (s : State) (outcome : Except Interruption EndOfBody) :
    Silent s (s.close outcome) := by
  unfold close
  split
  · exact Silent.released (s.release.silent_cancel _)
  · exact Silent.released (s.release.silent_fail _)
  · dsimp only
    split
    · exact Silent.released (s.release.silent_complete _)
    · exact Silent.released (s.release.silent_fail _)

theorem spoken_of_send {item : StreamItem} {alive : Bool} {chan : Channel}
    (h : s.chan.send item = some (alive, chan)) (hpc : s'.pc.plain = true)
    (hchan : s'.chan = chan ∨ s'.chan = chan.dropSink) : Spoken s s' item := by
  have hkept := Pc.not_aborted_of_plain hpc
  have hemitting := Pc.not_emitting_of_plain hpc
  rcases Channel.send_cases h with ⟨-, -, rfl⟩ | ⟨-, -, -, rfl⟩ <;>
    rcases hchan with hchan | hchan
  · exact ⟨⟨hchan ▸ .refl _, hkept⟩, hchan ▸ rfl, hchan ▸ rfl, .inl (hchan ▸ rfl), hemitting⟩
  · exact ⟨⟨hchan ▸ Channel.dropSink_later s.chan, hkept⟩, hchan ▸ rfl, hchan ▸ rfl,
      .inl (hchan ▸ rfl), hemitting⟩
  · exact ⟨⟨hchan ▸ .refl _, hkept⟩, hchan ▸ rfl, hchan ▸ rfl, .inr (hchan ▸ rfl), hemitting⟩
  · exact ⟨⟨hchan ▸ Channel.dropSink_later _, hkept⟩, hchan ▸ rfl, hchan ▸ rfl,
      .inr (hchan ▸ rfl), hemitting⟩

theorem taskStep_speaks {a : TaskAction} (h : s.taskStep ext s.pc a = some s') :
    Silent s s' ∨
    (∃ text rest, s.pc = .emitting text rest ∧
      Spoken s s' (.ok (.textDelta s.requestId text))) ∨
    ∃ item, s.pc = .announcing item ∧ Spoken s s' item := by
  cases taskStep_cases h with
  | unencoded => exact .inl (s.silent_fail _)
  | started | untold | held | pending | built => exact .inl (silent_of_chan rfl rfl)
  | told | abandoned => exact .inl (s.silent_interrupted _ _)
  | resumed hpc hresumed => exact .inl (silent_resumed hresumed)
  | elapsed => exact .inl (s.silent_elapsed _)
  | unbuilt => exact .inl (Silent.released (s.release.silent_fail _))
  | handled => exact .inl (s.silent_handlePayloads _)
  | emitted hpc hsend | unheard hpc hsend =>
    exact .inr (.inl ⟨_, _, hpc, spoken_of_send hsend rfl (.inl rfl)⟩)
  | closed => exact .inl (s.silent_close _)
  | cancelled =>
    exact .inl (silent_withHandle (RequestHandle.later_requestCancellation s.chan.handle _) rfl rfl)
  | finished => exact .inl (silent_withHandle (RequestHandle.later_finish s.chan.handle _) rfl rfl)
  | announced hpc hsend => exact .inr (.inr ⟨_, hpc, spoken_of_send hsend rfl (.inr rfl)⟩)

theorem follows_taskStep {a : TaskAction} (h : s.taskStep ext s.pc a = some s') :
    Follows s s' := by
  rcases taskStep_speaks h with hsilent | ⟨_, _, -, hspoken⟩ | ⟨_, -, hspoken⟩
  · exact hsilent.toFollows
  · exact hspoken.toFollows
  · exact hspoken.toFollows

end State

/-- Whatever a step does to the handle, an ended request stays as it ended, and a
recorded cause stays. -/
theorem step_later {s s' : State} {a : Action} (h : step ext s a = some s') :
    s.chan.handle.Later s'.chan.handle := by
  cases State.step_cases h with
  | task htask => exact (State.follows_taskStep htask).later
  | aborted => exact Channel.dropSink_later s.chan
  | told => exact RequestHandle.later_requestCancellation s.chan.handle _
  | finished => exact .refl _
  | read => exact .refl _
  | gone => exact RequestHandle.later_finish s.chan.handle .failed
  | dropped => exact .refl _

theorem step_not_aborted {s s' : State} {a : Action} (ha : a ≠ .abort)
    (hs : s.pc ≠ .aborted) (h : step ext s a = some s') : s'.pc ≠ .aborted := by
  cases State.step_cases h with
  | task htask => exact (State.follows_taskStep htask).kept
  | aborted => exact absurd rfl ha
  | told => exact hs
  | finished => exact hs
  | read => exact hs
  | gone => exact hs
  | dropped => exact hs

/-! ### One outcome -/

theorem run_not_aborted {as : List Action} {s t : State} (hlive : Action.abort ∉ as)
    (hs : s.pc ≠ .aborted) (h : (system ext).run s as = some t) : t.pc ≠ .aborted := by
  induction as generalizing s with
  | nil =>
    simp only [System.run, Option.some.injEq] at h
    exact h ▸ hs
  | cons a as ih =>
    simp only [System.run, Option.bind_eq_some_iff] at h
    obtain ⟨s', hst, hrun⟩ := h
    rw [List.mem_cons, not_or] at hlive
    exact ih hlive.2 (step_not_aborted (Ne.symm hlive.1) hs hst) hrun

/-- What a stream tells of a cancellation is the recorded cause, also where its task was aborted:
the one item that a stream makes up by itself is an error. -/
theorem cancelled_cause {s : State} (h : Reachable (system ext) s) :
    ∀ requestId cause, .ok (.cancelled requestId cause) ∈ s.chan.items →
      s.chan.handle.cancellationCause = some cause := by
  induction h with
  | init hinit =>
    obtain ⟨handle, body, -, rfl⟩ := hinit
    intro requestId cause hitem
    simp [startGeneration, generationStream, Channel.items] at hitem
  | @step s s' a hreach _ hst ih =>
    intro requestId cause hitem
    by_cases hkept : s'.pc = .aborted
    · refine (step_later hst).cause cause (ih requestId cause ?_)
      cases State.step_cases hst with
      | task htask => exact absurd hkept (State.follows_taskStep htask).kept
      | aborted | told | finished => exact hitem
      | read _ _ hqueue =>
        simp only [Channel.items, List.append_assoc, List.singleton_append] at hitem
        rwa [Channel.items, hqueue]
      | gone _ _ hqueue =>
        simp only [Channel.items, hqueue, List.append_nil, List.mem_append, List.mem_singleton] at hitem
        rcases hitem with hbefore | hgone
        · exact List.mem_append_left _ hbefore
        · cases hgone
      | dropped =>
        simp only [Channel.items, Channel.dropStream, List.append_nil] at hitem
        exact List.mem_append_left _ hitem
    · exact ((step_sound (reachable_sound hreach) hst).matched hkept _ hitem).2

theorem delivered_matches {s : State} (hs : s.Sound) (hp : s.pc ≠ .aborted) {item : StreamItem}
    (hi : item ∈ s.chan.delivered) : Matches s.chan.handle item :=
  hs.matched hp item (List.mem_append_left _ hi)

/-- Along every run whose task is not aborted, the request ends at most once, has ended
when its task has, and stays as it ended; its stream delivers at most one terminal item,
and that item says what the handle says, with the first cause ever recorded. -/
theorem stream_outcome {s₀ s : State} {as : List Action} (h₀ : (system ext).init s₀)
    (hlive : Action.abort ∉ as) (hrun : (system ext).run s₀ as = some s) :
    (system ext).entries (fun t => t.chan.handle.isTerminal) s₀ as =
      (if s.chan.handle.isTerminal then 1 else 0) ∧
    (s.pc = .done → s.chan.handle.isTerminal = true) ∧
    (∀ bs t, (system ext).run s bs = some t → s.chan.handle.isTerminal = true →
      t.chan.handle.state = s.chan.handle.state) ∧
    s.chan.delivered.countP isTerminalItem ≤ 1 ∧
    (∀ requestId summary, .ok (.completed requestId summary) ∈ s.chan.delivered →
      s.chan.handle.state = .completed) ∧
    (∀ requestId cause, .ok (.cancelled requestId cause) ∈ s.chan.delivered →
      s.chan.handle.state = .cancelled ∧ s.chan.handle.cancellationCause = some cause ∧
      (system ext).firstSome (fun t => t.chan.handle.cancellationCause) s₀ as = some cause) ∧
    (∀ error, .error error ∈ s.chan.delivered → s.chan.handle.state = .failed) := by
  have hsound : s.Sound := reachable_sound (reachable_of_run (.init h₀) hrun)
  have hkept : s.pc ≠ .aborted := by
    obtain ⟨handle, body, -, rfl⟩ := h₀
    exact run_not_aborted hlive (show Pc.start ≠ .aborted from nofun) hrun
  -- Having ended and carrying a cause are persistent, which turns what `Sound` says of the
  -- last state into statements about the whole run.
  have hentries := entries_of_persistent (P := fun t : State => t.chan.handle.isTerminal)
    (fun _ _ _ hst ht => (step_later hst).isTerminal ht) hrun
  have hfirst := firstSome_of_persistent (f := fun t : State => t.chan.handle.cancellationCause)
    (fun _ _ _ cause hst hc => (step_later hst).cause cause hc) hrun
  refine ⟨?_, ?_, ?_, ?_, ?_, ?_, ?_⟩
  · have hopen : s₀.chan.handle.isTerminal = false := by
      obtain ⟨handle, body, ha, rfl⟩ := h₀
      exact accepted_not_terminal ha
    simpa [hopen] using hentries
  · intro hdone
    have hstatus := hsound.status
    rwa [hdone] at hstatus
  · intro bs t hbs ht
    have hstay := run_preserves
      (I := fun u : State => s.chan.handle.Later u.chan.handle)
      (fun _ _ _ hst hl => hl.trans (step_later hst)) hbs (.refl _)
    exact hstay.terminal ht
  · have hle : s.chan.delivered.countP isTerminalItem ≤ s.chan.items.countP isTerminalItem := by
      simp only [Channel.items, List.countP_append]
      omega
    exact Nat.le_trans hle hsound.single
  · intro requestId summary hi
    exact delivered_matches hsound hkept hi
  · intro requestId cause hi
    have hm := delivered_matches hsound hkept hi
    exact ⟨hm.1, hm.2, hfirst.trans hm.2⟩
  · intro error hi
    exact delivered_matches hsound hkept hi

def samplePayload : String := "\x7b\"choices\":[\x7b\"text\":\"x\"\x7d]\x7d"

def sampleExternals : Externals where
  decode payload :=
    if payload = samplePayload then .ok ⟨[⟨"x", none⟩], none⟩
    else .error "expected value at line 1 column 1"
  decodeError _ := none

def sampleRequest : State := startGeneration (.new ⟨1⟩) (.ok [])

theorem sampleRequest_init : (system sampleExternals).init sampleRequest :=
  ⟨.new ⟨1⟩, .ok [], ⟨⟨1⟩, .inl rfl⟩, rfl⟩

/-- A user stops the request before its task is first polled, and reads the stream. -/
def cancelledEarly : List Action :=
  [.requestCancellation .user, .task .run, .task .pollToken, .task .run, .task .run,
    .task .send, .next, .next]

theorem stream_outcome_cancelledEarly :
    ∃ s, (system sampleExternals).run sampleRequest cancelledEarly = some s ∧
      s.chan.delivered = [.ok (.started ⟨1⟩), .ok (.cancelled ⟨1⟩ .user)] ∧
      s.chan.handle.state = .cancelled ∧
      (system sampleExternals).entries (fun t => t.chan.handle.isTerminal)
        sampleRequest cancelledEarly = 1 := by
  obtain ⟨s, hrun, hread⟩ : ∃ s, (system sampleExternals).run sampleRequest cancelledEarly = some s ∧
      s.chan.delivered = [.ok (.started ⟨1⟩), .ok (.cancelled ⟨1⟩ .user)] := ⟨_, rfl, rfl⟩
  have hout := stream_outcome sampleRequest_init (by decide) hrun
  have hcancel := hout.2.2.2.2.2.1 ⟨1⟩ .user (by rw [hread]; simp)
  refine ⟨s, hrun, hread, hcancel.1, ?_⟩
  rw [hout.1, RequestHandle.isTerminal, hcancel.1]
  rfl

/-! ### Where a stopped request waits -/

/-- The consumer holds the stream, the task is suspended in the send of a delta, and all
slots are taken. -/
structure State.Stuck (s : State) : Prop where
  held : s.chan.receiverAlive = true
  emitting : ∃ text rest, s.pc = .emitting text rest
  full : s.chan.queue.length = generationStreamBuffer

theorem not_enabled_of_stuck {s : State} (h : s.Stuck) (a : TaskAction) :
    s.taskStep ext s.pc a = none := by
  obtain ⟨text, rest, hpc⟩ := h.emitting
  have hfull : s.chan.full = true := by simp [Channel.full, h.full]
  have hsend : s.chan.send (.ok (.textDelta s.requestId text)) = none :=
    Channel.send_eq_none.mpr ⟨h.held, hfull⟩
  rw [hpc]
  cases a <;> simp [State.taskStep, hsend]

/-- Every other point of a request that has not ended has a step of the task, and none
of these steps waits for the consumer. -/
theorem enabled_of_not_stuck {s : State} (hs : s.Sound) (hheld : s.chan.receiverAlive = true)
    (hopen : s.chan.handle.isTerminal = false) (hfree : ¬ s.Stuck) :
    ∃ a, (s.taskStep ext s.pc a).isSome := by
  have hunsettled : s.pc.settled = false := hs.status.symm.trans hopen
  cases hpc : s.pc with
  | start =>
    refine ⟨.run, ?_⟩
    simp only [State.taskStep]
    split <;> rfl
  | awaiting point stage =>
    cases stage with
    | token =>
      refine ⟨.pollToken, ?_⟩
      simp only [State.taskStep]
      split <;> rfl
    | closed =>
      refine ⟨.pollClosed, ?_⟩
      simp [State.taskStep, hheld]
    | work => exact ⟨.pollPending, rfl⟩
  | building => exact ⟨.built (.ok ()), rfl⟩
  | handling payloads => exact ⟨.run, rfl⟩
  | emitting text rest =>
    have hroom : s.chan.queue.length < generationStreamBuffer := by
      have hne : s.chan.queue.length ≠ generationStreamBuffer :=
        fun hlen => hfree ⟨hheld, ⟨text, rest, hpc⟩, hlen⟩
      have hle := hs.bounded
      omega
    have hfull : s.chan.full = false := by simp [Channel.full, hroom]
    refine ⟨.send, ?_⟩
    simp [State.taskStep, Channel.send, hheld, hfull]
  | closing outcome => exact ⟨.run, rfl⟩
  | cancelling cause => exact ⟨.run, rfl⟩
  | finishing outcome item => exact ⟨.run, rfl⟩
  | announcing item =>
    rw [hpc] at hunsettled
    cases hunsettled
  | done =>
    rw [hpc] at hunsettled
    cases hunsettled
  | aborted =>
    rw [hpc] at hunsettled
    cases hunsettled

/-- A request told to stop, whose consumer holds the stream and does not read, has a step
of its own task everywhere but in the send of a delta to a full buffer: the one wait of
the task that does not watch the token. -/
theorem told_task_enabled_iff {s : State} (hs : Reachable (system ext) s) :
    (s.chan.receiverAlive = true → s.chan.handle.cancellationCause.isSome →
      s.chan.handle.isTerminal = false → ∃ a, (s.taskStep ext s.pc a).isSome) ↔
    ¬ (s.chan.handle.cancellationCause.isSome ∧ s.Stuck) := by
  have hsound := reachable_sound hs
  constructor
  · rintro hclaim ⟨htold, hstuck⟩
    obtain ⟨text, rest, hpc⟩ := hstuck.emitting
    have hopen : s.chan.handle.isTerminal = false := by
      have hstatus := hsound.status
      rwa [hpc] at hstatus
    obtain ⟨a, ha⟩ := hclaim hstuck.held htold hopen
    rw [not_enabled_of_stuck hstuck a] at ha
    cases ha
  · intro hfree hheld htold hopen
    exact enabled_of_not_stuck hsound hheld hopen fun hstuck => hfree ⟨htold, hstuck⟩

/-! A consumer that reads nothing: `Started` and 31 deltas fill the buffer, the 32nd
delta waits, and then a user stops the request. -/

def sampleFrame : List UInt8 :=
  [0x64, 0x61, 0x74, 0x61, 0x3a, 0x20, 0x7b, 0x22, 0x63, 0x68, 0x6f, 0x69, 0x63, 0x65, 0x73,
    0x22, 0x3a, 0x5b, 0x7b, 0x22, 0x74, 0x65, 0x78, 0x74, 0x22, 0x3a, 0x22, 0x78, 0x22, 0x7d,
    0x5d, 0x7d, 0x0a, 0x0a]

theorem push_sampleFrame :
    SseDecoder.default.push sampleFrame = (.ok [samplePayload], SseDecoder.default) := by
  decide

theorem readPayload_sample :
    readPayload sampleExternals none samplePayload = .delta "x" none := by
  decide

def streaming (queue : List StreamItem) : State :=
  { sampleRequest with
    chan := { sampleRequest.chan with
      handle := ⟨⟨1⟩, .running, ⟨none⟩⟩
      queue := queue }
    pc := .awaiting .reading .token
    transport := ⟨false, .running, true⟩ }

def sampleDelta : StreamItem := .ok (.textDelta ⟨1⟩ "x")

def sendingDelta (queue : List StreamItem) : State :=
  (streaming queue).goto (.emitting "x" [])

def untilResponse : List Action :=
  [.task .run, .task .pollToken, .task .pollClosed, .task (.pollWork (.connected (.ok ()))),
    .task .pollToken, .task .pollClosed, .task (.pollWork (.handshaken (.ok ()))),
    .task (.built (.ok ())), .task .pollToken, .task .pollClosed,
    .task (.pollWork (.answered (.ok 200)))]

def untilDelta : List Action :=
  [.task .pollToken, .task .pollClosed,
    .task (.pollWork (.frame (some (.ok (some sampleFrame))))), .task .run]

def sendDelta : List Action := [.task .send, .task .run]

theorem run_untilResponse :
    (system sampleExternals).run sampleRequest untilResponse =
      some (streaming [.ok (.started ⟨1⟩)]) := by
  rfl

theorem run_untilDelta (queue : List StreamItem) :
    (system sampleExternals).run (streaming queue) untilDelta = some (sendingDelta queue) := by
  have hframe : (streaming queue).framed (some (.ok (some sampleFrame))) =
      (streaming queue).goto (.handling [samplePayload]) := by
    simp only [State.framed, streaming, sampleRequest, startGeneration, push_sampleFrame,
      State.goto]
  have hpayload : ((streaming queue).goto (.handling [samplePayload])).handlePayloads
      sampleExternals [samplePayload] = sendingDelta queue := by
    have hread : readPayload sampleExternals
        ((streaming queue).goto (.handling [samplePayload])).terminal samplePayload =
        .delta "x" none := readPayload_sample
    simp only [State.handlePayloads, hread]
    rfl
  have h1 : step sampleExternals (streaming queue) (.task .pollToken) =
      some ((streaming queue).goto (.awaiting .reading .closed)) := rfl
  have h2 : step sampleExternals ((streaming queue).goto (.awaiting .reading .closed))
      (.task .pollClosed) = some ((streaming queue).goto (.awaiting .reading .work)) := rfl
  have h3 : step sampleExternals ((streaming queue).goto (.awaiting .reading .work))
      (.task (.pollWork (.frame (some (.ok (some sampleFrame)))))) =
      some ((streaming queue).goto (.handling [samplePayload])) := congrArg some hframe
  have h4 : step sampleExternals ((streaming queue).goto (.handling [samplePayload]))
      (.task .run) = some (sendingDelta queue) := congrArg some hpayload
  simp only [untilDelta, System.run, system, h1, h2, h3, h4, Option.bind_some]

theorem run_sendDelta {queue : List StreamItem} (h : queue.length < generationStreamBuffer) :
    (system sampleExternals).run (sendingDelta queue) sendDelta =
      some (streaming (queue ++ [sampleDelta])) := by
  have hfull : (sendingDelta queue).chan.full = false := decide_eq_false (Nat.not_le.mpr h)
  have hsend : (sendingDelta queue).chan.send
      (.ok (.textDelta (sendingDelta queue).requestId "x")) =
      some (true, (streaming (queue ++ [sampleDelta])).chan) := by
    simp only [Channel.send, hfull]
    rfl
  have h1 : step sampleExternals (sendingDelta queue) (.task .send) =
      some ((streaming (queue ++ [sampleDelta])).goto (.handling [])) := by
    change State.taskStep sampleExternals (sendingDelta queue) (.emitting "x" []) .send = _
    simp only [State.taskStep, hsend]
    rfl
  have h2 : step sampleExternals ((streaming (queue ++ [sampleDelta])).goto (.handling []))
      (.task .run) = some (streaming (queue ++ [sampleDelta])) := rfl
  simp only [sendDelta, System.run, system, h1, h2, Option.bind_some]

/-- Each round puts one more delta into the buffer, as long as there is room. -/
theorem reachable_streaming {n : ℕ} (hn : n < generationStreamBuffer) :
    Reachable (system sampleExternals)
      (streaming (.ok (.started ⟨1⟩) :: List.replicate n sampleDelta)) := by
  induction n with
  | zero => exact reachable_of_run (.init sampleRequest_init) run_untilResponse
  | succ n ih =>
    have hroom : (Except.ok (.started ⟨1⟩) :: List.replicate n sampleDelta : List StreamItem).length
        < generationStreamBuffer := by simpa using hn
    have hemit := reachable_of_run (ih (by omega)) (run_untilDelta _)
    have hsent := reachable_of_run hemit (run_sendDelta hroom)
    rwa [List.cons_append, ← List.replicate_succ'] at hsent

theorem told_task_disabled :
    ¬ ∀ (ext : Externals) (s : State), Reachable (system ext) s →
      s.chan.receiverAlive = true → s.chan.handle.cancellationCause.isSome →
      s.chan.handle.isTerminal = false → ∃ a, (s.taskStep ext s.pc a).isSome := by
  intro hclaim
  have hlast : 31 < generationStreamBuffer := by decide
  have hfull := reachable_of_run (reachable_streaming hlast) (run_untilDelta _)
  have htold := hfull.next (.requestCancellation .user) rfl
  obtain ⟨a, ha⟩ := hclaim sampleExternals _ htold rfl rfl rfl
  rw [not_enabled_of_stuck ⟨rfl, ⟨"x", [], rfl⟩, rfl⟩ a] at ha
  cases ha

/-- One slot is left when the request is stopped in the send. -/
theorem told_task_enabled_iff_sample :
    ∃ s, Reachable (system sampleExternals) s ∧ s.chan.receiverAlive = true ∧
      s.chan.handle.cancellationCause = some .user ∧ s.pc = .emitting "x" [] ∧
      s.chan.queue.length = 31 ∧ ∃ a, (s.taskStep sampleExternals s.pc a).isSome := by
  have hroom : 30 < generationStreamBuffer := by decide
  have hemitting := reachable_of_run (reachable_streaming hroom) (run_untilDelta _)
  have htold := hemitting.next (.requestCancellation .user) rfl
  refine ⟨_, htold, rfl, rfl, rfl, rfl, (told_task_enabled_iff htold).mpr ?_ rfl rfl rfl⟩
  rintro ⟨-, hstuck⟩
  exact absurd hstuck.full (by decide)

end MehoyRuntime.Stream
