import MehoyRuntime.Stream.Framing
import MehoyRuntime.Stream.Outcome

/-!
# Undisturbed responses

The runs in which nobody stops the request, nothing fails below the response and the
consumer stays, with the frames the transport hands over. Every such run that ends has
delivered the `outcome` of its frames, and for any frames there is one.
-/

namespace MehoyRuntime.Stream
open MehoyRuntime.Core TransitionSystem

def endingOf : StreamItem → Option Ending
  | .ok (.completed _ summary) => some (.completed summary)
  | .error (.malformedEvent _) => some .malformedEvent
  | .error (.unexpectedEnd _) => some .unexpectedEnd
  | _ => none

/-- The text of the deltas in order, and the one terminal item. -/
def Delivers (c : Channel) (d : Delivery) : Prop :=
  c.items.filterMap deltaText = d.deltas ∧
    (c.items.filter isTerminalItem).map endingOf = [some d.ending]

def undisturbed : Action → Bool
  | .task (.pollWork (.connected (.ok ()))) | .task (.pollWork (.handshaken (.ok ())))
  | .task (.pollWork (.frame _)) | .task (.built (.ok ())) => true
  | .task (.pollWork (.answered (.ok status))) => isSuccess status
  | .task (.pollWork _) | .task (.built (.error _)) | .task .pollElapsed => false
  | .task _ | .next => true
  | .abort | .requestCancellation _ | .dropStream => false

def frameOf : Action → Option (Option (Except String (Option (List UInt8))))
  | .task (.pollWork (.frame outcome)) => some outcome
  | _ => none

/-- The frames the transport still has after a step. -/
def framesAfter (a : Action) (frames : List (Option (List UInt8))) : List (Option (List UInt8)) :=
  if (frameOf a).isSome then frames.tail else frames

def Answers (a : Action) (frames : List (Option (List UInt8))) : Prop :=
  ∀ outcome, frameOf a = some outcome → outcome = frames.head?.map Except.ok

/-- The frames in order and then the end of the body, as far as they are asked for. -/
def Undisturbed : List (Option (List UInt8)) → List Action → Prop
  | _, [] => True
  | frames, a :: as =>
    undisturbed a = true ∧ Answers a frames ∧ Undisturbed (framesAfter a frames) as

/-- Some undisturbed run over these frames ends and has delivered `d`. -/
def Reads (ext : Externals) (frames : List (Option (List UInt8))) (d : Delivery) : Prop :=
  ∃ id request actions t, (system ext).run (startGeneration (.new id) (.ok request)) actions = some t ∧
    Undisturbed frames actions ∧ t.pc = .done ∧ Delivers t.chan d

/-- What is still to be delivered. -/
def future (ext : Externals) (s : State) (frames : List (Option (List UInt8))) : Option Delivery :=
  match s.pc with
  | .start | .awaiting .connecting _ | .awaiting .handshaking _ | .awaiting .sending _
  | .awaiting .reading _ | .building => some (outcome ext s.decoder s.terminal frames)
  | .handling payloads =>
    some (afterPayloads (handleAll ext s.terminal payloads) fun terminal =>
      outcome ext s.decoder terminal frames)
  | .emitting text rest =>
    some ((afterPayloads (handleAll ext s.terminal rest) fun terminal =>
      outcome ext s.decoder terminal frames).prepend [text])
  | .closing (.ok _) => some ⟨[], endOfBody s.terminal⟩
  | .closing (.error (.failed (.malformedEvent _))) => some ⟨[], .malformedEvent⟩
  | .finishing _ item | .announcing item => (endingOf item).map fun ending => ⟨[], ending⟩
  | _ => none

/-- The program points at which the whole of the remaining frames is still to come. -/
def Pc.waiting : Pc → Bool
  | .start | .building | .awaiting .connecting _ | .awaiting .handshaking _
  | .awaiting .sending _ | .awaiting .reading _ => true
  | _ => false

structure Calm (s : State) : Prop where
  sound : s.Sound
  alive : s.chan.receiverAlive = true
  untold : s.chan.handle.cancellationCause = none
  request : ∃ bytes, s.body = .ok bytes

/-- What has been sent and what is still to come make up `d`. -/
def Heading (ext : Externals) (s : State) (frames : List (Option (List UInt8))) (d : Delivery) : Prop :=
  (s.pc = .done ∧ Delivers s.chan d) ∨
    ∃ rest, future ext s frames = some rest ∧ d = rest.prepend (s.chan.items.filterMap deltaText)

variable {ext : Externals}

theorem deltas_push (c : Channel) (item : StreamItem) :
    ({ c with queue := c.queue ++ [item] } : Channel).items.filterMap deltaText =
      c.items.filterMap deltaText ++ (deltaText item).toList := by
  rw [Sound.items_push, List.filterMap_append]
  cases hitem : deltaText item <;> simp [hitem]

theorem delivers_announced {c : Channel} {item : StreamItem} {ending : Ending}
    (hquiet : ∀ other ∈ c.items, isTerminalItem other = false) (hitem : endingOf item = some ending)
    (hterminal : isTerminalItem item = true) :
    Delivers ({ c with queue := c.queue ++ [item] } : Channel)
      ⟨c.items.filterMap deltaText, ending⟩ := by
  have hnone : c.items.filter isTerminalItem = [] := by
    rw [List.filter_eq_nil_iff]
    intro other hother
    simp [hquiet other hother]
  have htext : deltaText item = none := by
    rcases item with error | event
    · rfl
    · cases event <;> first | rfl | cases hterminal
  refine ⟨?_, ?_⟩
  · rw [deltas_push, htext]
    exact List.append_nil _
  · rw [Sound.items_push, List.filter_append, hnone]
    simp [hterminal, hitem]

namespace State
variable {s s' : State} {frames frames' : List (Option (List UInt8))} {d : Delivery}

theorem consumeSink_working (hs : s.Sound) (hp : s.pc.working = true) (pc : Pc) :
    s.consumeSink pc = { s with chan := { s.chan with sinkFinished := true }, pc } := by
  unfold consumeSink
  rw [hs.sink hp]
  rfl

/-- A step that leaves the channel's items alone and goes on to the same future. -/
theorem heading_of_future (h : Heading ext s frames d) (hp : s.pc ≠ .done)
    (hitems : s'.chan.items.filterMap deltaText = s.chan.items.filterMap deltaText)
    (hfuture : ∀ rest, future ext s frames = some rest → future ext s' frames' = some rest) :
    Heading ext s' frames' d := by
  rcases h with ⟨hdone, -⟩ | ⟨rest, hrest, hd⟩
  · exact (hp hdone).elim
  · exact .inr ⟨rest, hfuture rest hrest, by rw [hitems]; exact hd⟩

theorem future_waiting (hp : s.pc.waiting = true) :
    future ext s frames = some (outcome ext s.decoder s.terminal frames) := by
  unfold Pc.waiting at hp
  split at hp
  case h_7 => cases hp
  all_goals
    rename_i hpc
    simp [future, hpc]

theorem heading_moved (h : Heading ext s frames d) (hp : s.pc.waiting = true)
    (hp' : s'.pc.waiting = true) (hitems : s'.chan.items = s.chan.items)
    (hdecoder : s'.decoder = s.decoder) (hterminal : s'.terminal = s.terminal) :
    Heading ext s' frames d := by
  refine heading_of_future h (fun hdone => by rw [hdone] at hp; cases hp) (by rw [hitems]) ?_
  intro rest hrest
  rwa [future_waiting hp', hdecoder, hterminal, ← future_waiting hp]

/-- A request that is read undisturbed is not collecting the body of a refusal. -/
theorem waiting_of_heading {point : AwaitPoint} {stage : PollStage} (h : Heading ext s frames d)
    (hp : s.pc = .awaiting point stage) (stage' : PollStage) :
    Pc.waiting (.awaiting point stage') = true := by
  rcases h with ⟨hdone, -⟩ | ⟨rest, hrest, -⟩
  · rw [hp] at hdone
    cases hdone
  · cases point <;> first | rfl | simp [future, hp] at hrest

theorem heading_framed (hp : s.pc = .awaiting .reading .work) (h : Heading ext s frames d) :
    Heading ext (s.framed (frames.head?.map Except.ok)) frames.tail d := by
  refine heading_of_future h (by rw [hp]; nofun) ?_ ?_
  · unfold framed
    split <;> try rfl
    split <;> rfl
  · intro rest hrest
    simp only [future, hp, Option.some.injEq] at hrest
    subst hrest
    match frames with
    | [] => rfl
    | none :: frames => rfl
    | some chunk :: frames =>
      simp only [List.head?_cons, Option.map_some, List.tail_cons, framed, outcome]
      rcases s.decoder.push chunk with ⟨detail | payloads, decoder⟩ <;> rfl

theorem heading_handled {payloads : List String} (hcalm : Calm s) (hp : s.pc = .handling payloads)
    (h : Heading ext s frames d) : Heading ext (s.handlePayloads ext payloads) frames d := by
  have hsink : s.chan.sinkFinished = false := hcalm.sound.sink (by rw [hp]; rfl)
  refine heading_of_future h (by rw [hp]; nofun) ?_ ?_
  · unfold handlePayloads
    split
    · rfl
    · split <;> try rfl
      dsimp only
      split <;> rfl
  · intro rest hrest
    simp only [future, hp, Option.some.injEq] at hrest
    subst hrest
    match payloads with
    | [] => rfl
    | payload :: payloads =>
      simp only [handlePayloads, handleAll]
      cases readPayload ext s.terminal payload with
      | marked => rfl
      | malformed detail => rfl
      | skipped => rfl
      | delta text terminal =>
        simp only [Channel.delta, hsink, afterPayloads_prepend, Bool.false_eq_true, if_false]
        cases htext : text.isEmpty <;> rfl

theorem heading_resumed {point : AwaitPoint} {outcome : WorkOutcome}
    (hpc : s.pc = .awaiting point .work) (h : Heading ext s frames d)
    (hun : undisturbed (.task (.pollWork outcome)) = true)
    (hans : Answers (.task (.pollWork outcome)) frames)
    (hst : s.resumed ext point outcome = some s') :
    Heading ext s' (framesAfter (.task (.pollWork outcome)) frames) d := by
  have hwaiting : s.pc.waiting = true := by
    rw [hpc]
    exact waiting_of_heading h hpc .work
  unfold resumed at hst
  split at hst
  case h_2 | h_4 =>
    cases hst
    exact heading_moved h hwaiting rfl rfl rfl rfl
  case h_6 status =>
    cases hst
    have hsuccess : isSuccess status = true := hun
    refine heading_moved h hwaiting ?_ rfl rfl rfl
    simp [answered, hsuccess, Pc.waiting]
  case h_9 outcome =>
    cases hst
    rw [hans outcome rfl]
    exact heading_framed hpc h
  case h_10 => cases hst
  all_goals cases hun

theorem heading_closed {outcome : Except Interruption EndOfBody} (hcalm : Calm s)
    (hpc : s.pc = .closing outcome) (h : Heading ext s frames d) :
    Heading ext (s.close outcome) frames d := by
  have hworking : s.release.pc.working = true := by rw [show s.release.pc = _ from hpc]; rfl
  have hsound : s.release.Sound := hcalm.sound
  refine heading_of_future h (by rw [hpc]; nofun) ?_ fun rest hrest => ?_
  · unfold close
    split
    · simp only [cancel, consumeSink_working hsound hworking]
      rfl
    · simp only [fail, consumeSink_working hsound hworking]
      rfl
    · dsimp only
      split
      · simp only [complete, consumeSink_working hsound hworking]
        rfl
      · simp only [fail, consumeSink_working hsound hworking]
        rfl
  · rcases outcome with interruption | ending
    · rcases interruption with cause | error
      · simp [future, hpc] at hrest
      · cases error <;> first
          | (simp [future, hpc] at hrest; done)
          | (simp only [close, fail, consumeSink_working hsound hworking]; simpa [future, hpc, endingOf] using hrest)
    · simp only [future, hpc] at hrest
      simp only [close]
      cases hterminal : s.terminal with
      | some summary =>
        simp only [show s.release.terminal = _ from hterminal, complete, consumeSink_working hsound hworking]
        simpa [future, hterminal, endingOf, endOfBody] using hrest
      | none =>
        simp only [show s.release.terminal = _ from hterminal, fail, consumeSink_working hsound hworking]
        simpa [future, hterminal, endingOf, endOfBody] using hrest

theorem heading_taskStep {a : TaskAction} (hcalm : Calm s) (h : Heading ext s frames d)
    (hun : undisturbed (.task a) = true) (hans : Answers (.task a) frames)
    (hst : s.taskStep ext s.pc a = some s') :
    Heading ext s' (framesAfter (.task a) frames) d := by
  cases taskStep_cases hst with
  | unencoded hpc hbody =>
    obtain ⟨bytes, hbytes⟩ := hcalm.request
    rw [hbytes] at hbody
    cases hbody
  | started hpc hbody => exact heading_moved h (by rw [hpc]; rfl) rfl rfl rfl rfl
  | told hpc hcause =>
    rw [hcalm.untold] at hcause
    cases hcause
  | untold hpc hcause =>
    exact heading_moved h (by rw [hpc]; exact waiting_of_heading h hpc _)
      (waiting_of_heading h hpc _) rfl rfl rfl
  | held hpc halive =>
    exact heading_moved h (by rw [hpc]; exact waiting_of_heading h hpc _)
      (waiting_of_heading h hpc _) rfl rfl rfl
  | abandoned hpc hgone =>
    rw [hcalm.alive] at hgone
    cases hgone
  | resumed hpc hresumed => exact heading_resumed hpc h hun hans hresumed
  | elapsed hpc => cases hun
  | pending hpc =>
    exact heading_moved h (by rw [hpc]; exact waiting_of_heading h hpc _)
      (waiting_of_heading h hpc _) rfl rfl rfl
  | unbuilt hpc => cases hun
  | built hpc => exact heading_moved h (by rw [hpc]; rfl) rfl rfl rfl rfl
  | handled hpc => exact heading_handled hcalm hpc h
  | @emitted text rest chan hpc hsend =>
    rcases Channel.send_cases hsend with ⟨-, halive, -⟩ | ⟨-, -, -, rfl⟩
    · cases halive
    · rcases h with ⟨hdone, -⟩ | ⟨later, hlater, hd⟩
      · rw [hpc] at hdone
        cases hdone
      · simp only [future, hpc, Option.some.injEq] at hlater
        refine .inr ⟨_, rfl, ?_⟩
        rw [deltas_push, hd, ← hlater]
        exact Delivery.prepend_prepend _ _ _
  | unheard hpc hsend =>
    rcases Channel.send_cases hsend with ⟨hgone, -, -⟩ | ⟨-, -, halive, -⟩
    · rw [hcalm.alive] at hgone
      cases hgone
    · cases halive
  | closed hpc => exact heading_closed hcalm hpc h
  | cancelled hpc =>
    rcases h with ⟨hdone, -⟩ | ⟨rest, hrest, -⟩
    · rw [hpc] at hdone
      cases hdone
    · simp [future, hpc] at hrest
  | finished hpc =>
    exact heading_of_future h (by rw [hpc]; nofun) rfl fun rest hrest => by
      simpa [future, hpc, goto] using hrest
  | @announced item alive chan hpc hsend =>
    rcases Channel.send_cases hsend with ⟨hgone, -, -⟩ | ⟨-, -, -, rfl⟩
    · rw [hcalm.alive] at hgone
      cases hgone
    · rcases h with ⟨hdone, -⟩ | ⟨rest, hrest, hd⟩
      · rw [hpc] at hdone
        cases hdone
      · simp only [future, hpc, Option.map_eq_some_iff] at hrest
        obtain ⟨ending, hending, rfl⟩ := hrest
        have hquiet := hcalm.sound.quiet (by rw [hpc]; rfl)
        have hready := hcalm.sound.ready item hpc
        refine .inl ⟨rfl, ?_⟩
        have hdelivers := delivers_announced hquiet hending hready.1
        rw [hd, Delivery.prepend, List.append_nil]
        exact hdelivers

/-- The consumer, the token and the encoded request are as they were. -/
structure Keeps (s s' : State) : Prop where
  alive : s'.chan.receiverAlive = s.chan.receiverAlive
  cause : s'.chan.handle.cancellationCause = s.chan.handle.cancellationCause
  request : s'.body = s.body

theorem keeps_consumeSink (s : State) (pc : Pc) : Keeps s (s.consumeSink pc) := by
  unfold consumeSink ended Channel.dropSink
  cases s.chan.sinkFinished <;> exact ⟨rfl, rfl, rfl⟩

theorem Keeps.released (h : Keeps s.release s') : Keeps s s' := ⟨h.alive, h.cause, h.request⟩

theorem dropSink_cause (c : Channel) :
    c.dropSink.handle.cancellationCause = c.handle.cancellationCause := by
  unfold Channel.dropSink
  cases c.sinkFinished
  · exact RequestHandle.finish_cause _ _
  · rfl

theorem keeps_framed (s : State) (outcome : Option (Except String (Option (List UInt8)))) :
    Keeps s (s.framed outcome) := by
  unfold framed
  split <;> try exact ⟨rfl, rfl, rfl⟩
  split <;> exact ⟨rfl, rfl, rfl⟩

theorem keeps_handlePayloads (s : State) (payloads : List String) :
    Keeps s (s.handlePayloads ext payloads) := by
  unfold handlePayloads
  split
  · exact ⟨rfl, rfl, rfl⟩
  · split <;> try exact ⟨rfl, rfl, rfl⟩
    dsimp only
    split <;> exact ⟨rfl, rfl, rfl⟩

theorem keeps_resumed {point : AwaitPoint} {outcome : WorkOutcome}
    (h : s.resumed ext point outcome = some s') : Keeps s s' := by
  unfold resumed at h
  split at h <;> cases h
  case h_2 | h_4 => exact ⟨rfl, rfl, rfl⟩
  case h_6 => exact ⟨rfl, RequestHandle.markRunning_cause _, rfl⟩
  case h_9 => exact s.keeps_framed _
  all_goals exact (s.release.keeps_consumeSink _).released

theorem keeps_close (s : State) (outcome : Except Interruption EndOfBody) :
    Keeps s (s.close outcome) := by
  unfold close
  split
  · exact (s.release.keeps_consumeSink _).released
  · exact (s.release.keeps_consumeSink _).released
  · dsimp only
    split <;> exact (s.release.keeps_consumeSink _).released

theorem keeps_taskStep {a : TaskAction} (hcalm : Calm s) (h : Heading ext s frames d)
    (hun : undisturbed (.task a) = true) (hst : s.taskStep ext s.pc a = some s') : Keeps s s' := by
  cases taskStep_cases hst with
  | unencoded hpc hbody => exact s.keeps_consumeSink _
  | started | untold | held | pending | built => exact ⟨rfl, rfl, rfl⟩
  | told hpc hcause =>
    rw [hcalm.untold] at hcause
    cases hcause
  | abandoned hpc hgone =>
    rw [hcalm.alive] at hgone
    cases hgone
  | resumed hpc hresumed => exact keeps_resumed hresumed
  | elapsed hpc => cases hun
  | unbuilt hpc => cases hun
  | handled hpc => exact s.keeps_handlePayloads _
  | emitted hpc hsend | unheard hpc hsend =>
    rcases Channel.send_cases hsend with ⟨-, -, rfl⟩ | ⟨-, -, -, rfl⟩ <;> exact ⟨rfl, rfl, rfl⟩
  | closed hpc => exact s.keeps_close _
  | cancelled hpc =>
    rcases h with ⟨hdone, -⟩ | ⟨rest, hrest, -⟩
    · rw [hpc] at hdone
      cases hdone
    · simp [future, hpc] at hrest
  | finished hpc => exact ⟨rfl, RequestHandle.finish_cause _ _, rfl⟩
  | announced hpc hsend =>
    rcases Channel.send_cases hsend with ⟨-, -, rfl⟩ | ⟨-, -, -, rfl⟩ <;>
      exact ⟨rfl, dropSink_cause _, rfl⟩

theorem heading_not_aborted (h : Heading ext s frames d) : s.pc ≠ .aborted := by
  intro hpc
  rcases h with ⟨hdone, -⟩ | ⟨rest, hrest, -⟩
  · rw [hpc] at hdone
    cases hdone
  · simp [future, hpc] at hrest

theorem heading_items {chan : Channel} (h : Heading ext s frames d)
    (hitems : chan.items = s.chan.items) : Heading ext { s with chan } frames d := by
  rcases h with ⟨hdone, hdelivers⟩ | ⟨rest, hrest, hd⟩
  · exact .inl ⟨hdone, by rwa [Delivers, hitems]⟩
  · exact .inr ⟨rest, hrest, by rwa [hitems]⟩

theorem calm_keeps (hcalm : Calm s) (hkeeps : Keeps s s') (hsound : s'.Sound) : Calm s' where
  sound := hsound
  alive := hkeeps.alive.trans hcalm.alive
  untold := hkeeps.cause.trans hcalm.untold
  request := by
    obtain ⟨bytes, hbytes⟩ := hcalm.request
    exact ⟨bytes, hkeeps.request.trans hbytes⟩

theorem heading_step {a : Action} (hcalm : Calm s) (h : Heading ext s frames d)
    (hun : undisturbed a = true) (hans : Answers a frames) (hst : step ext s a = some s') :
    Calm s' ∧ Heading ext s' (framesAfter a frames) d := by
  have hsound := step_sound hcalm.sound hst
  cases step_cases hst with
  | task htask =>
    exact ⟨calm_keeps hcalm (keeps_taskStep hcalm h hun htask) hsound,
      heading_taskStep hcalm h hun hans htask⟩
  | finished => exact ⟨hcalm, h⟩
  | read _ _ hqueue =>
    exact ⟨calm_keeps hcalm ⟨rfl, rfl, rfl⟩ hsound,
      heading_items h (by simp [Channel.items, hqueue])⟩
  | gone halive hunfinished hqueue hgone =>
    -- A stream that stops by itself is one whose task was aborted.
    have haborted := (Sound.readGone hcalm.sound hqueue hgone hunfinished halive).1
    exact absurd haborted (heading_not_aborted h)
  | aborted => cases hun
  | told => cases hun
  | dropped => cases hun

end State

/-- An undisturbed run over some frames that ends has delivered their outcome. -/
theorem heading_run {s t : State} {frames : List (Option (List UInt8))} {d : Delivery}
    {actions : List Action} (hcalm : Calm s) (h : Heading ext s frames d)
    (hun : Undisturbed frames actions) (hrun : (system ext).run s actions = some t)
    (hdone : t.pc = .done) : Delivers t.chan d := by
  induction actions generalizing s frames with
  | nil =>
    simp only [System.run, Option.some.injEq] at hrun
    subst hrun
    rcases h with ⟨-, hdelivers⟩ | ⟨rest, hrest, -⟩
    · exact hdelivers
    · simp [future, hdone] at hrest
  | cons a as ih =>
    simp only [System.run, Option.bind_eq_some_iff] at hrun
    obtain ⟨s', hst, hrun⟩ := hrun
    obtain ⟨hun, hans, hrest⟩ := hun
    obtain ⟨hcalm', h'⟩ := State.heading_step hcalm h hun hans hst
    exact ih hcalm' h' hrest hrun

theorem calm_start (id : RequestId) (request : List UInt8) :
    Calm (startGeneration (.new id) (.ok request)) where
  sound := Sound.start rfl
  alive := rfl
  untold := rfl
  request := ⟨request, rfl⟩

theorem heading_start (id : RequestId) (request : List UInt8) (frames : List (Option (List UInt8))) :
    Heading ext (startGeneration (.new id) (.ok request)) frames
      (outcome ext .default none frames) :=
  .inr ⟨_, rfl, rfl⟩

/-! ### Every response can be read -/

def CanEnd (ext : Externals) (s : State) (frames : List (Option (List UInt8))) : Prop :=
  ∃ actions t, (system ext).run s actions = some t ∧ Undisturbed frames actions ∧ t.pc = .done

section CanEnd
variable {s s' : State} {frames : List (Option (List UInt8))} {d : Delivery}

theorem canEnd_step {a : Action} (hcalm : Calm s) (h : Heading ext s frames d)
    (hst : step ext s a = some s') (hun : undisturbed a = true) (hans : Answers a frames)
    (hnext : Calm s' → Heading ext s' (framesAfter a frames) d →
      CanEnd ext s' (framesAfter a frames)) : CanEnd ext s frames := by
  obtain ⟨hcalm', h'⟩ := State.heading_step hcalm h hun hans hst
  obtain ⟨actions, t, hrun, hrest, hdone⟩ := hnext hcalm' h'
  exact ⟨a :: actions, t, by simpa [System.run, system, hst] using hrun, ⟨hun, hans, hrest⟩, hdone⟩

/-- The steps of the task that are answered by nothing. -/
theorem canEnd_task {a : TaskAction} (hcalm : Calm s) (h : Heading ext s frames d)
    (hst : s.taskStep ext s.pc a = some s') (hun : undisturbed (.task a) = true)
    (hframe : frameOf (.task a) = none)
    (hnext : Calm s' → Heading ext s' frames d → CanEnd ext s' frames) : CanEnd ext s frames := by
  have hafter : framesAfter (.task a) frames = frames := by rw [framesAfter, hframe]; rfl
  refine canEnd_step hcalm h (a := .task a) hst hun (fun outcome ho => ?_) (by rwa [hafter])
  rw [hframe] at ho
  cases ho

/-- A consumer that reads makes room for the next item. -/
theorem canEnd_room (hcalm : Calm s) (h : Heading ext s frames d) (hp : s.pc.ended = false)
    (hroom : ∀ s', Calm s' → Heading ext s' frames d → s'.pc = s.pc → s'.chan.full = false →
      CanEnd ext s' frames) : CanEnd ext s frames := by
  cases hfull : s.chan.full with
  | false => exact hroom s hcalm h rfl hfull
  | true =>
    have hunfinished : s.chan.stream.finished = false := by
      rw [hcalm.sound.finished, List.any_eq_false]
      intro item hitem
      simp [hcalm.sound.quiet hp item (List.mem_append_left _ hitem)]
    cases hq : s.chan.queue with
    | nil =>
      rw [Channel.full, hq] at hfull
      cases hfull
    | cons item rest =>
      have hst : step ext s .next = some { s with chan := { s.chan with
          queue := rest
          stream := s.chan.stream.observe item
          delivered := s.chan.delivered ++ [item] } } := by
        simp only [step, hcalm.alive, if_true, Channel.next_cons hunfinished hq, Option.map_some]
      refine canEnd_step hcalm h hst rfl (fun _ hframe => by cases hframe)
        fun hcalm' h' => hroom _ hcalm' h' rfl ?_
      have hbound := hcalm.sound.bounded
      simp only [hq, List.length_cons] at hbound
      simp only [Channel.full, decide_eq_false_iff_not]
      omega

theorem send_room {c : Channel} (halive : c.receiverAlive = true) (hroom : c.full = false)
    (item : StreamItem) : c.send item = some (true, { c with queue := c.queue ++ [item] }) := by
  simp [Channel.send, halive, hroom]

theorem canEnd_announcing {item : StreamItem} (hcalm : Calm s) (h : Heading ext s frames d)
    (hp : s.pc = .announcing item) : CanEnd ext s frames := by
  refine canEnd_room hcalm h (by rw [hp]; rfl) fun s' hcalm' h' hp' hroom => ?_
  have hst : s'.taskStep ext s'.pc .send = some (State.ended
      { s' with chan := { s'.chan with queue := s'.chan.queue ++ [item] } } .done) := by
    rw [hp', hp]
    simp only [State.taskStep, send_room hcalm'.alive hroom]
    rfl
  exact canEnd_task hcalm' h' hst rfl rfl fun _ _ => ⟨[], _, rfl, trivial, rfl⟩

theorem canEnd_finishing {outcome : RequestState} {item : StreamItem} (hcalm : Calm s)
    (h : Heading ext s frames d) (hp : s.pc = .finishing outcome item) : CanEnd ext s frames := by
  have hst : s.taskStep ext s.pc .run =
      some ((s.withHandle (s.chan.handle.finish outcome).2).goto (.announcing item)) := by
    rw [hp]
    rfl
  exact canEnd_task hcalm h hst rfl rfl fun hcalm' h' => canEnd_announcing hcalm' h' rfl

theorem canEnd_closing {outcome : Except Interruption EndOfBody} (hcalm : Calm s)
    (h : Heading ext s frames d) (hp : s.pc = .closing outcome) : CanEnd ext s frames := by
  have hworking : s.release.pc.working = true := by rw [show s.release.pc = _ from hp]; rfl
  have hsound : s.release.Sound := hcalm.sound
  have hst : s.taskStep ext s.pc .run = some (s.close outcome) := by
    rw [hp]
    rfl
  have hfinishing : ∃ state item, (s.close outcome).pc = .finishing state item := by
    rcases outcome with (cause | error) | ending
    · rcases h with ⟨hdone, -⟩ | ⟨rest, hrest, -⟩
      · rw [hp] at hdone
        cases hdone
      · simp [future, hp] at hrest
    · exact ⟨_, _, congrArg State.pc (State.consumeSink_working hsound hworking _)⟩
    · simp only [State.close]
      cases s.release.terminal with
      | some summary => exact ⟨_, _, congrArg State.pc (State.consumeSink_working hsound hworking _)⟩
      | none => exact ⟨_, _, congrArg State.pc (State.consumeSink_working hsound hworking _)⟩
  obtain ⟨state, item, hpc⟩ := hfinishing
  exact canEnd_task hcalm h hst rfl rfl fun hcalm' h' => canEnd_finishing hcalm' h' hpc

theorem canEnd_handling {payloads : List String} (hcalm : Calm s) (h : Heading ext s frames d)
    (hp : s.pc = .handling payloads)
    (hread : ∀ s', Calm s' → Heading ext s' frames d → s'.pc = .awaiting .reading .token →
      CanEnd ext s' frames) : CanEnd ext s frames := by
  induction payloads generalizing s with
  | nil =>
    have hst : s.taskStep ext s.pc .run = some (s.goto (.awaiting .reading .token)) := by
      rw [hp]
      rfl
    exact canEnd_task hcalm h hst rfl rfl fun hcalm' h' => hread _ hcalm' h' rfl
  | cons payload rest ih =>
    have hst : s.taskStep ext s.pc .run = some (s.handlePayloads ext (payload :: rest)) := by
      rw [hp]
      rfl
    refine canEnd_task hcalm h hst rfl rfl fun hcalm' h' => ?_
    have hsink : s.chan.sinkFinished = false := hcalm.sound.sink (by rw [hp]; rfl)
    simp only [State.handlePayloads] at hcalm' h' ⊢
    cases hpayload : readPayload ext s.terminal payload with
    | marked =>
      simp only [hpayload] at hcalm' h' ⊢
      exact canEnd_closing hcalm' h' rfl
    | malformed detail =>
      simp only [hpayload] at hcalm' h' ⊢
      exact canEnd_closing hcalm' h' rfl
    | skipped =>
      simp only [hpayload] at hcalm' h' ⊢
      exact ih hcalm' h' rfl
    | delta text terminal =>
      simp only [hpayload, Channel.delta, hsink, Bool.false_eq_true, if_false] at hcalm' h' ⊢
      cases htext : text.isEmpty with
      | true =>
        simp only [htext, if_true] at hcalm' h' ⊢
        exact ih hcalm' h' rfl
      | false =>
        simp only [htext, Bool.false_eq_true, if_false] at hcalm' h' ⊢
        refine canEnd_room hcalm' h' rfl fun s' hcalm' h' hp' hroom => ?_
        have hst : s'.taskStep ext s'.pc .send = some { s' with
            chan := { s'.chan with queue := s'.chan.queue ++ [.ok (.textDelta s'.requestId text)] }
            pc := .handling rest } := by
          rw [hp']
          simp only [State.goto, State.taskStep, send_room hcalm'.alive hroom]
        exact canEnd_task hcalm' h' hst rfl rfl fun hcalm' h' => ih hcalm' h' rfl

/-- The two polls before the work of a select. -/
theorem canEnd_polled {point : AwaitPoint} (hcalm : Calm s) (h : Heading ext s frames d)
    (hp : s.pc = .awaiting point .token)
    (hwork : Calm (s.goto (.awaiting point .work)) →
      Heading ext (s.goto (.awaiting point .work)) frames d →
      CanEnd ext (s.goto (.awaiting point .work)) frames) : CanEnd ext s frames := by
  have htoken : s.taskStep ext s.pc .pollToken = some (s.goto (.awaiting point .closed)) := by
    rw [hp]
    simp only [State.taskStep, hcalm.untold]
  refine canEnd_task hcalm h htoken rfl rfl fun hcalm' h' => ?_
  have hclosed : (s.goto (.awaiting point .closed)).taskStep ext (.awaiting point .closed) .pollClosed =
      some (s.goto (.awaiting point .work)) := by
    have halive : (s.goto (.awaiting point .closed)).chan.receiverAlive = true := hcalm.alive
    simp only [State.taskStep, halive, if_true]
    rfl
  exact canEnd_task hcalm' h' hclosed rfl rfl hwork

theorem canEnd_reading (hcalm : Calm s) (h : Heading ext s frames d)
    (hp : s.pc = .awaiting .reading .token) : CanEnd ext s frames := by
  induction frames generalizing s with
  | nil =>
    refine canEnd_polled hcalm h hp fun hcalm h => ?_
    refine canEnd_step (a := .task (.pollWork (.frame none))) hcalm h rfl rfl ?_ ?_
    · rintro _ ⟨⟩
      rfl
    · exact fun hcalm' h' => canEnd_closing hcalm' h' rfl
  | cons frame frames ih =>
    refine canEnd_polled hcalm h hp fun hcalm h => ?_
    refine canEnd_step (a := .task (.pollWork (.frame (some (.ok frame))))) hcalm h rfl rfl ?_ ?_
    · rintro _ ⟨⟩
      rfl
    · intro hcalm' h'
      cases frame with
      | none => exact ih hcalm' h' rfl
      | some chunk =>
        simp only [State.framed] at hcalm' h' ⊢
        rcases hpush : (s.goto (.awaiting .reading .work)).decoder.push chunk with ⟨detail | payloads, decoder⟩
        · simp only [hpush] at hcalm' h' ⊢
          exact canEnd_closing hcalm' h' rfl
        · simp only [hpush] at hcalm' h' ⊢
          exact canEnd_handling hcalm' h' rfl fun _ => ih

theorem canEnd_sending (hcalm : Calm s) (h : Heading ext s frames d)
    (hp : s.pc = .awaiting .sending .token) : CanEnd ext s frames := by
  refine canEnd_polled hcalm h hp fun hcalm h => ?_
  refine canEnd_task (a := .pollWork (.answered (.ok 200))) hcalm h rfl rfl rfl fun hcalm h => ?_
  exact canEnd_reading hcalm h rfl

theorem canEnd_building (hcalm : Calm s) (h : Heading ext s frames d) (hp : s.pc = .building) :
    CanEnd ext s frames := by
  have hst : s.taskStep ext s.pc (.built (.ok ())) = some (s.goto (.awaiting .sending .token)) := by
    rw [hp]
    rfl
  exact canEnd_task hcalm h hst rfl rfl fun hcalm h => canEnd_sending hcalm h rfl

theorem canEnd_handshaking (hcalm : Calm s) (h : Heading ext s frames d)
    (hp : s.pc = .awaiting .handshaking .token) : CanEnd ext s frames := by
  refine canEnd_polled hcalm h hp fun hcalm h => ?_
  refine canEnd_task (a := .pollWork (.handshaken (.ok ()))) hcalm h rfl rfl rfl fun hcalm h => ?_
  exact canEnd_building hcalm h rfl

theorem canEnd_connecting (hcalm : Calm s) (h : Heading ext s frames d)
    (hp : s.pc = .awaiting .connecting .token) : CanEnd ext s frames := by
  refine canEnd_polled hcalm h hp fun hcalm h => ?_
  refine canEnd_task (a := .pollWork (.connected (.ok ()))) hcalm h rfl rfl rfl fun hcalm h => ?_
  exact canEnd_handshaking hcalm h rfl

theorem canEnd_token {point : AwaitPoint} (hcalm : Calm s) (h : Heading ext s frames d)
    (hp : s.pc = .awaiting point .token) : CanEnd ext s frames := by
  cases point with
  | connecting => exact canEnd_connecting hcalm h hp
  | handshaking => exact canEnd_handshaking hcalm h hp
  | sending => exact canEnd_sending hcalm h hp
  | collecting status => cases State.waiting_of_heading h hp .token
  | reading => exact canEnd_reading hcalm h hp

/-- Work that is not ready yet starts the select over. -/
theorem canEnd_work {point : AwaitPoint} (hcalm : Calm s) (h : Heading ext s frames d)
    (hp : s.pc = .awaiting point .work) : CanEnd ext s frames := by
  have hst : s.taskStep ext s.pc .pollPending = some (s.goto (.awaiting point .token)) := by
    rw [hp]
    rfl
  exact canEnd_task hcalm h hst rfl rfl fun hcalm h => canEnd_token hcalm h rfl

theorem canEnd_awaiting {point : AwaitPoint} {stage : PollStage} (hcalm : Calm s)
    (h : Heading ext s frames d) (hp : s.pc = .awaiting point stage) : CanEnd ext s frames := by
  cases stage with
  | token => exact canEnd_token hcalm h hp
  | work => exact canEnd_work hcalm h hp
  | closed =>
    have hst : s.taskStep ext s.pc .pollClosed = some (s.goto (.awaiting point .work)) := by
      rw [hp]
      simp only [State.taskStep, hcalm.alive, if_true]
    exact canEnd_task hcalm h hst rfl rfl fun hcalm h => canEnd_work hcalm h rfl

theorem canEnd_emitting {text : String} {rest : List String} (hcalm : Calm s)
    (h : Heading ext s frames d) (hp : s.pc = .emitting text rest) : CanEnd ext s frames := by
  refine canEnd_room hcalm h (by rw [hp]; rfl) fun s' hcalm' h' hp' hroom => ?_
  have hst : s'.taskStep ext s'.pc .send = some { s' with
      chan := { s'.chan with queue := s'.chan.queue ++ [.ok (.textDelta s'.requestId text)] }
      pc := .handling rest } := by
    rw [hp', hp]
    simp only [State.taskStep, send_room hcalm'.alive hroom]
  exact canEnd_task hcalm' h' hst rfl rfl fun hcalm h =>
    canEnd_handling hcalm h rfl fun _ => canEnd_reading

/-- However far an undisturbed run has come, it can be brought to its end. -/
theorem canEnd_of_heading (hcalm : Calm s) (h : Heading ext s frames d) : CanEnd ext s frames := by
  cases hp : s.pc with
  | start =>
    obtain ⟨bytes, hbytes⟩ := hcalm.request
    have hst : s.taskStep ext s.pc .run = some { s with
        transport := { s.transport with connection := true }
        pc := .awaiting .connecting .token } := by
      rw [hp]
      simp only [State.taskStep, hbytes]
    exact canEnd_task hcalm h hst rfl rfl fun hcalm h => canEnd_connecting hcalm h rfl
  | awaiting point stage => exact canEnd_awaiting hcalm h hp
  | building => exact canEnd_building hcalm h hp
  | handling payloads => exact canEnd_handling hcalm h hp fun _ => canEnd_reading
  | emitting text rest => exact canEnd_emitting hcalm h hp
  | closing outcome => exact canEnd_closing hcalm h hp
  | finishing outcome item => exact canEnd_finishing hcalm h hp
  | announcing item => exact canEnd_announcing hcalm h hp
  | done => exact ⟨[], s, rfl, trivial, hp⟩
  | cancelling cause =>
    rcases h with ⟨hdone, -⟩ | ⟨rest, hrest, -⟩
    · rw [hp] at hdone
      cases hdone
    · simp [future, hp] at hrest
  | aborted => exact absurd hp (State.heading_not_aborted h)

theorem canEnd_start (id : RequestId) (request : List UInt8) (frames : List (Option (List UInt8))) :
    CanEnd ext (startGeneration (.new id) (.ok request)) frames :=
  canEnd_of_heading (calm_start id request) (heading_start id request frames)

end CanEnd

theorem delivers_unique {c : Channel} {d d' : Delivery} (h : Delivers c d) (h' : Delivers c d') :
    d = d' := by
  have hdeltas := h.1.symm.trans h'.1
  have hending := h.2.symm.trans h'.2
  cases d
  cases d'
  simp_all

theorem reads_outcome {frames : List (Option (List UInt8))} {d : Delivery}
    (h : Reads ext frames d) : d = outcome ext .default none frames := by
  obtain ⟨id, request, actions, t, hrun, hun, hdone, hdelivers⟩ := h
  exact delivers_unique hdelivers
    (heading_run (calm_start id request) (heading_start id request frames) hun hrun hdone)

theorem reads_iff {frames : List (Option (List UInt8))} {d : Delivery} :
    Reads ext frames d ↔ d = outcome ext .default none frames := by
  refine ⟨reads_outcome, ?_⟩
  rintro rfl
  obtain ⟨actions, t, hrun, hun, hdone⟩ := canEnd_start ⟨1⟩ [] frames
  exact ⟨⟨1⟩, [], actions, t, hrun, hun, hdone,
    heading_run (calm_start ⟨1⟩ []) (heading_start ⟨1⟩ [] frames) hun hrun hdone⟩

/-- The framings of a response all deliver the same exactly where no complete data line of
it is malformed, or the events before the first one that is are quiet. -/
theorem framing_invisible_iff {body : List UInt8} (hbody : body.length ≤ maxPendingBytes) :
    (∀ frames frames' d d', bodyOf frames = body → bodyOf frames' = body →
      Reads ext frames d → Reads ext frames' d' → d = d') ↔
    framingFree ext none (wholeOf .default body) = true := by
  rw [← outcome_unique_iff hbody]
  constructor
  · intro hsame frames frames' hframes hframes'
    exact hsame frames frames' _ _ hframes hframes' (reads_iff.mpr rfl) (reads_iff.mpr rfl)
  · intro hsame frames frames' d d' hframes hframes' hd hd'
    rw [reads_iff.mp hd, reads_iff.mp hd', hsame frames frames' hframes hframes']

/-- One delta, cut inside its payload. -/
theorem framing_invisible_sampleFrame :
    framingFree sampleExternals none (wholeOf .default sampleFrame) = true ∧
      outcome sampleExternals .default none
          [some (sampleFrame.take 9), none, some (sampleFrame.drop 9)] =
        outcome sampleExternals .default none [some sampleFrame] := by
  have hfree : framingFree sampleExternals none (wholeOf .default sampleFrame) = true := by decide
  refine ⟨hfree, (framing_invisible_iff (by decide)).mpr hfree _ _ _ _ ?_ ?_
    (reads_iff.mpr rfl) (reads_iff.mpr rfl)⟩
  · decide
  · decide

/-- A data line that is not UTF-8. -/
def malformedLine : List UInt8 := [0x64, 0x61, 0x74, 0x61, 0x3a, 0xff, 0x0a]

/-- The delta of the first event is lost where the malformed line after it is in the same
frame. -/
theorem framing_visible :
    ¬ ∀ (ext : Externals) (body : List UInt8), body.length ≤ maxPendingBytes →
      ∀ frames frames' d d', bodyOf frames = body → bodyOf frames' = body →
        Reads ext frames d → Reads ext frames' d' → d = d' := by
  intro hclaim
  have hlost : outcome sampleExternals .default none [some (sampleFrame ++ malformedLine)] =
      ⟨[], .malformedEvent⟩ := by decide
  have hkept : outcome sampleExternals .default none [some sampleFrame, some malformedLine] =
      ⟨["x"], .malformedEvent⟩ := by decide
  have hsame := hclaim sampleExternals (sampleFrame ++ malformedLine) (by decide)
    [some (sampleFrame ++ malformedLine)] [some sampleFrame, some malformedLine] _ _
    (by decide) (by decide) (reads_iff.mpr rfl) (reads_iff.mpr rfl)
  rw [hlost, hkept] at hsame
  cases hsame

end MehoyRuntime.Stream
