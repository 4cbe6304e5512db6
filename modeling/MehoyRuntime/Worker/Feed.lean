import MehoyRuntime.Worker.Log
import MehoyRuntime.Worker.Process

/-!
# The live feed

Every line that a drain records it also sends to the feed, in a step of its own, and
`wait_ready` watches the feed from the moment it subscribes until it returns. The drains, the
worker and the polls of the probe take their steps in any order.
-/

namespace MehoyRuntime.Worker
open TransitionSystem

def LINE_FEED_CAPACITY : ℕ := 256

def announces (text : String) : Bool :=
  READY_MARKER.toList.isPrefixOf (text.toList.dropWhile Stream.isWhiteSpace)

/-- What the probe makes of one answer of the feed; it reads on where that is nothing. -/
def received : TryRecv → Option ProbeOutcome
  | .line text => if announces text then some (.ready ⟨text⟩) else none
  | .lagged => none
  | .empty | .closed => some .notYet

theorem announced_eq (answers : List TryRecv) :
    announced answers = (answers.findSome? received).getD .notYet := by
  induction answers with
  | nil => rfl
  | cons answer rest ih =>
    cases answer with
    | line text =>
      by_cases htext : announces text
      · simp [announced, received, htext, show READY_MARKER.toList.isPrefixOf _ = true from htext]
      · have hnot : READY_MARKER.toList.isPrefixOf (text.toList.dropWhile Stream.isWhiteSpace) = false :=
          Bool.eq_false_iff.mpr htext
        simp [announced, received, htext, hnot, ih]
    | lagged => exact ih
    | empty => rfl
    | closed => rfl

/-- A poll ends with the answer that it does not read on after. -/
theorem announced_append {answers : List TryRecv} {answer : TryRecv} {outcome : ProbeOutcome}
    (hbefore : answers.findSome? received = none) (hanswer : received answer = some outcome) :
    announced (answers ++ [answer]) = outcome := by
  rw [announced_eq, List.findSome?_append, hbefore]
  simp [hanswer]

def ProbeOutcome.isReady : ProbeOutcome → Bool
  | .ready _ => true
  | .notYet => false

/-- The end of a broadcast channel that a receiver reads: what is kept for it, and how many
values it has lost since its last read. -/
structure Receiver where
  queue : List LogLine
  lost : ℕ
  bounded : queue.length ≤ LINE_FEED_CAPACITY

namespace Receiver

/-- A new receiver sees only what is sent from then on. -/
def subscribe : Receiver := ⟨[], 0, Nat.zero_le _⟩

def full (r : Receiver) : Bool := r.queue.length = LINE_FEED_CAPACITY

def hasAnnouncement (r : Receiver) : Bool := r.queue.any fun line => announces line.text

def send (r : Receiver) (line : LogLine) : Receiver where
  queue := (if r.full then r.queue.tail else r.queue) ++ [line]
  lost := if r.full then r.lost + 1 else r.lost
  bounded := by
    have hbounded := r.bounded
    split
    · rename_i hfull
      have hlength : r.queue.length = LINE_FEED_CAPACITY := of_decide_eq_true hfull
      simp [hlength, LINE_FEED_CAPACITY]
    · rename_i hfull
      have hlength : r.queue.length ≠ LINE_FEED_CAPACITY := of_decide_eq_false (Bool.eq_false_iff.mpr hfull)
      rw [List.length_append, List.length_singleton]
      omega

/-- The line pushes the last announcement out. -/
def loses (r : Receiver) (line : LogLine) : Bool := r.hasAnnouncement && !(r.send line).hasAnnouncement

/-- A receiver that has fallen behind is told so, and goes on with the oldest value there is. -/
def tryRecv (r : Receiver) : TryRecv × Receiver :=
  if r.lost ≠ 0 then (.lagged, { r with lost := 0 })
  else
    match r with
    | ⟨[], _, _⟩ => (.empty, r)
    | ⟨line :: rest, lost, bounded⟩ =>
      (.line line.text, ⟨rest, lost, Nat.le_of_succ_le bounded⟩)

end Receiver

/-- A poll of the probe and the answers it has had; `due` says that an announcement had been
recorded when it began, and that no poll had come upon one. -/
structure Poll where
  due : Bool
  answers : List TryRecv

def Poll.outcome (poll : Poll) : ProbeOutcome := announced poll.answers

/-- A worker's output, the lines that a drain has recorded and not sent yet, and the watch of
`wait_ready`: `polling` is there while a poll is under way. -/
structure Watch where
  capture : Capture
  pending : LogStream → Option LogLine
  sent : List LogLine
  receiver : Option Receiver
  polling : Option Poll
  polls : List Poll

inductive WatchAction
  | write (stream : LogStream) (n : ℕ)
  | read (stream : LogStream) (n : ℕ)
  | record (stream : LogStream)
  | send (stream : LogStream)
  | subscribe
  | poll
  | tryRecv
  | leave

namespace Watch

def spawned (capacity : ℕ) (output : LogStream → List UInt8) : Watch :=
  ⟨.spawned capacity output, fun _ => none, [], none, none, []⟩

def recordedAnnouncement (w : Watch) : Bool := w.capture.recorded.any fun line => announces line.text

def pendingAnnouncement (w : Watch) : Bool :=
  [LogStream.stdout, .stderr].any fun stream => (w.pending stream).any fun line => announces line.text

def withdrawn (w : Watch) (stream : LogStream) : Watch :=
  { w with pending := Function.update w.pending stream none }

def sentAnnouncement (w : Watch) : Bool := w.sent.any fun line => announces line.text

def answered (w : Watch) : Bool := w.polls.any fun poll => poll.outcome.isReady

def step (room : ℕ+) (w : Watch) : WatchAction → Option Watch
  | .write stream n =>
    (w.capture.step room (.write stream n)).map fun capture => { w with capture }
  | .read stream n =>
    if (w.pending stream).isSome then none
    else (w.capture.step room (.read stream n)).map fun capture => { w with capture }
  | .record stream =>
    if (w.pending stream).isSome then none
    else (w.capture.drains stream).turn.map fun (text, d) =>
      { w with
        capture := (w.capture.recordFrom stream text).put stream d
        pending := Function.update w.pending stream (text.map fun text => ⟨stream, text⟩) }
  -- without a receiver the value is gone
  | .send stream =>
    (w.pending stream).map fun line =>
      { w.withdrawn stream with
        sent := w.sent ++ [line]
        receiver := w.receiver.map fun r => r.send line }
  | .subscribe =>
    if w.polling.isSome then none else some { w with receiver := some .subscribe }
  | .poll =>
    if w.receiver.isNone || w.polling.isSome then none
    else some { w with polling := some ⟨w.recordedAnnouncement && !w.answered, []⟩ }
  | .tryRecv =>
    match w.receiver, w.polling with
    | some r, some poll =>
      let poll := { poll with answers := poll.answers ++ [r.tryRecv.1] }
      match received r.tryRecv.1 with
      | none => some { w with receiver := some r.tryRecv.2, polling := some poll }
      | some outcome =>
        some { w with
          receiver := if outcome.isReady then none else some r.tryRecv.2
          polling := none
          polls := w.polls ++ [poll] }
    | _, _ => none
  -- the worker has ended, the deadline has passed, or the caller has dropped the future
  | .leave => if w.polling.isSome then none else some { w with receiver := none }

def system (room : ℕ+) (capacity : ℕ) (output : LogStream → List UInt8) : System Watch WatchAction where
  init w := w = spawned capacity output
  step := step room

/-- The steps that leave an announcement where the watch will come to it: the subscription is
made before one has been sent, the last one in a full feed is not pushed out, and no poll that
has to see one reads the feed to its end while one is still to be sent. Once a poll has come upon
one, or while there is another that is still to be sent, the first two are free. -/
def keepsAnnouncement (w : Watch) : WatchAction → Bool
  | .subscribe => !w.sentAnnouncement || w.answered || w.pendingAnnouncement
  | .send stream => w.answered || (w.withdrawn stream).pendingAnnouncement ||
      !(w.pending stream).any fun line => w.receiver.any fun r => r.loses line
  | .tryRecv => !(w.polling.any Poll.due && w.pendingAnnouncement &&
      w.receiver.any fun r => r.queue.isEmpty && r.lost == 0)
  | _ => true

/-! ### Where an announcement is -/

variable {room : ℕ+} {capacity : ℕ} {output : LogStream → List UInt8} {w w' : Watch}

theorem pendingAnnouncement_iff :
    w.pendingAnnouncement = true ↔
      ∃ stream line, w.pending stream = some line ∧ announces line.text = true := by
  simp only [pendingAnnouncement, List.any_cons, List.any_nil, Bool.or_false, Bool.or_eq_true,
    Option.any_eq_true]
  constructor
  · rintro (⟨line, hline, htext⟩ | ⟨line, hline, htext⟩)
    · exact ⟨.stdout, line, hline, htext⟩
    · exact ⟨.stderr, line, hline, htext⟩
  · rintro ⟨stream, line, hline, htext⟩
    cases stream
    · exact .inl ⟨line, hline, htext⟩
    · exact .inr ⟨line, hline, htext⟩

/-- The feed holds an announcement for the receiver there is. -/
def waiting (w : Watch) : Bool := w.receiver.any Receiver.hasAnnouncement

/-- A recorded announcement has been answered, is still to be sent, or waits in the feed, unless
there is no receiver and one has been sent. -/
structure Kept (w : Watch) : Prop where
  kept : w.recordedAnnouncement = true → w.answered = true ∨ w.pendingAnnouncement = true ∨
    w.waiting = true ∨ (w.receiver = none ∧ w.sentAnnouncement = true)
  sent : w.waiting = true → w.sentAnnouncement = true
  watched : ∀ poll, w.polling = some poll → w.receiver.isSome ∧
    poll.answers.findSome? received = none ∧
    (poll.due = true → w.recordedAnnouncement = true ∧ w.answered = false)
  polls : ∀ poll ∈ w.polls, poll.due = true → poll.outcome.isReady = true

theorem kept_spawned : Kept (spawned capacity output) where
  kept := fun h => by cases h
  sent := fun h => by cases h
  watched := fun _ h => by cases h
  polls := fun _ h => by cases h

theorem kept_capture {capture : Capture} (h : Kept w) (hrecorded : capture.recorded = w.capture.recorded) :
    Kept { w with capture } := by
  have hsame : { w with capture }.recordedAnnouncement = w.recordedAnnouncement := by
    simp only [recordedAnnouncement, hrecorded]
  refine ⟨?_, h.sent, ?_, h.polls⟩
  · rw [hsame]
    exact h.kept
  · rw [hsame]
    exact h.watched

theorem kept_record {stream : LogStream} {text : String} {d : Drain} (h : Kept w)
    (hfree : w.pending stream = none) :
    Kept { w with
      capture := (w.capture.record ⟨stream, text⟩).put stream d
      pending := Function.update w.pending stream (some ⟨stream, text⟩) } where
  kept := by
    intro hrecorded
    simp only [recordedAnnouncement, Capture.put, Capture.record, List.any_append, List.any_cons,
      List.any_nil, Bool.or_false, Bool.or_eq_true] at hrecorded
    rcases hrecorded with hbefore | hnew
    · rcases h.kept hbefore with hanswered | hpending | hrest
      · exact .inl hanswered
      · obtain ⟨other, line, hline, htext⟩ := pendingAnnouncement_iff.mp hpending
        have hother : other ≠ stream := by
          rintro rfl
          rw [hfree] at hline
          cases hline
        exact .inr (.inl (pendingAnnouncement_iff.mpr
          ⟨other, line, (Function.update_of_ne hother ..).trans hline, htext⟩))
      · exact .inr (.inr hrest)
    · exact .inr (.inl (pendingAnnouncement_iff.mpr ⟨stream, _, Function.update_self .., hnew⟩))
  sent := h.sent
  watched := by
    intro poll hpoll
    obtain ⟨hreceiver, hanswers, hdue⟩ := h.watched poll hpoll
    refine ⟨hreceiver, hanswers, fun htrue => ⟨?_, (hdue htrue).2⟩⟩
    simp only [recordedAnnouncement, Capture.put, Capture.record, List.any_append, Bool.or_eq_true]
    exact .inl (hdue htrue).1
  polls := h.polls

theorem hasAnnouncement_line (r : Receiver) {line : LogLine} (htext : announces line.text = true) :
    (r.send line).hasAnnouncement = true := by
  simp [Receiver.hasAnnouncement, Receiver.send, htext]

theorem hasAnnouncement_of_send {r : Receiver} {line : LogLine}
    (h : (r.send line).hasAnnouncement = true) :
    r.hasAnnouncement = true ∨ announces line.text = true := by
  simp only [Receiver.hasAnnouncement, Receiver.send, List.any_append, List.any_cons, List.any_nil,
    Bool.or_false, Bool.or_eq_true] at h ⊢
  rcases h with hqueue | htext
  · split at hqueue
    · obtain ⟨other, hother, hannounces⟩ := List.any_eq_true.mp hqueue
      exact .inl (List.any_eq_true.mpr ⟨other, List.mem_of_mem_tail hother, hannounces⟩)
    · exact .inl hqueue
  · exact .inr htext

theorem kept_send {stream : LogStream} {line : LogLine} (h : Kept w) (hline : w.pending stream = some line)
    (hok : w.keepsAnnouncement (.send stream) = true) :
    Kept { w.withdrawn stream with
      sent := w.sent ++ [line]
      receiver := w.receiver.map fun r => r.send line } where
  kept := by
    intro hrecorded
    rcases h.kept hrecorded with hanswered | hpending | hwaiting | ⟨hnone, hsent⟩
    · exact .inl hanswered
    · obtain ⟨other, waiting, hother, htext⟩ := pendingAnnouncement_iff.mp hpending
      by_cases hsame : other = stream
      · -- the announcement is the line that is sent
        subst hsame
        rw [hline] at hother
        cases hother
        right; right
        cases hreceiver : w.receiver with
        | none => exact .inr ⟨rfl, by simp [sentAnnouncement, htext]⟩
        | some r => exact .inl (hasAnnouncement_line r htext)
      · exact .inr (.inl (pendingAnnouncement_iff.mpr
          ⟨other, waiting, (Function.update_of_ne hsame ..).trans hother, htext⟩))
    · obtain ⟨r, hreceiver, hr⟩ := (Option.any_eq_true ..).mp hwaiting
      simp only [keepsAnnouncement, Bool.or_eq_true, hline, hreceiver, Option.any_some,
        Bool.not_eq_true'] at hok
      rcases hok with (hanswered | hpending) | hkept
      · exact .inl hanswered
      · exact .inr (.inl hpending)
      · have hstays : (r.send line).hasAnnouncement = true := by
          simpa [Receiver.loses, hr] using hkept
        exact .inr (.inr (.inl (by simpa [waiting, hreceiver] using hstays)))
    · refine .inr (.inr (.inr ⟨by rw [hnone, Option.map_none], ?_⟩))
      simp only [sentAnnouncement, List.any_append, Bool.or_eq_true]
      exact .inl hsent
  sent := by
    intro hwaiting
    obtain ⟨r, hreceiver, hr⟩ := (Option.any_eq_true ..).mp hwaiting
    obtain ⟨before, hbefore, rfl⟩ := Option.map_eq_some_iff.mp hreceiver
    simp only [sentAnnouncement, List.any_append, Bool.or_eq_true]
    rcases hasAnnouncement_of_send hr with hr | htext
    · exact .inl (h.sent ((Option.any_eq_true ..).mpr ⟨before, hbefore, hr⟩))
    · exact .inr (by simpa using htext)
  watched := by
    intro poll hpoll
    obtain ⟨hreceiver, hrest⟩ := h.watched poll hpoll
    exact ⟨by simpa using hreceiver, hrest⟩
  polls := h.polls

theorem kept_subscribe (h : Kept w) (hidle : w.polling = none)
    (hok : w.keepsAnnouncement .subscribe = true) : Kept { w with receiver := some .subscribe } where
  kept := by
    intro hrecorded
    simp only [keepsAnnouncement, Bool.or_eq_true, Bool.not_eq_true'] at hok
    rcases hok with (hunsent | hanswered) | hpending
    · rcases h.kept hrecorded with hanswered | hpending | hwaiting | ⟨-, hsent⟩
      · exact .inl hanswered
      · exact .inr (.inl hpending)
      · rw [h.sent hwaiting] at hunsent
        cases hunsent
      · rw [hsent] at hunsent
        cases hunsent
    · exact .inl hanswered
    · exact .inr (.inl hpending)
  sent := fun hwaiting => by cases hwaiting
  watched := by
    intro poll hpoll
    have hbefore : w.polling = some poll := hpoll
    rw [hidle] at hbefore
    cases hbefore
  polls := h.polls

theorem kept_leave (h : Kept w) (hidle : w.polling = none) : Kept { w with receiver := none } where
  kept := by
    intro hrecorded
    rcases h.kept hrecorded with hanswered | hpending | hwaiting | ⟨-, hsent⟩
    · exact .inl hanswered
    · exact .inr (.inl hpending)
    · exact .inr (.inr (.inr ⟨rfl, h.sent hwaiting⟩))
    · exact .inr (.inr (.inr ⟨rfl, hsent⟩))
  sent := fun hwaiting => by cases hwaiting
  watched := by
    intro poll hpoll
    have hbefore : w.polling = some poll := hpoll
    rw [hidle] at hbefore
    cases hbefore
  polls := h.polls

theorem kept_poll (h : Kept w) (hreceiver : w.receiver.isSome) :
    Kept { w with polling := some ⟨w.recordedAnnouncement && !w.answered, []⟩ } where
  kept := h.kept
  sent := h.sent
  watched := by
    rintro _ ⟨⟩
    refine ⟨hreceiver, rfl, fun hdue => ?_⟩
    have hboth : w.recordedAnnouncement = true ∧ w.answered = false := by simpa using hdue
    exact hboth
  polls := h.polls

/-- What one read of the feed comes to: the probe reads on, with no announcement taken from the
feed, or it has one, or the feed is empty. -/
theorem tryRecv_cases (r : Receiver) :
    (received r.tryRecv.1 = none ∧ r.tryRecv.2.hasAnnouncement = r.hasAnnouncement) ∨
      (∃ text, received r.tryRecv.1 = some (.ready ⟨text⟩)) ∨
      (received r.tryRecv.1 = some .notYet ∧ r.tryRecv.2 = r ∧ r.queue = [] ∧ r.lost = 0) := by
  obtain ⟨queue, lost, hbounded⟩ := r
  cases lost with
  | succ lost => exact .inl ⟨rfl, rfl⟩
  | zero =>
    cases queue with
    | nil => exact .inr (.inr ⟨rfl, rfl, rfl, rfl⟩)
    | cons line rest =>
      cases htext : announces line.text with
      | true =>
        refine .inr (.inl ⟨line.text, ?_⟩)
        simp [Receiver.tryRecv, received, htext]
      | false =>
        refine .inl ⟨?_, ?_⟩
        · simp [Receiver.tryRecv, received, htext]
        · simp [Receiver.tryRecv, Receiver.hasAnnouncement, htext]

theorem kept_passed {r r' : Receiver} {poll poll' : Poll} (h : Kept w) (hr : w.receiver = some r)
    (hpolling : w.polling = some poll) (hdue : poll'.due = poll.due)
    (hanswers : poll'.answers.findSome? received = none)
    (hsame : r'.hasAnnouncement = r.hasAnnouncement) :
    Kept { w with receiver := some r', polling := some poll' } := by
  have hwaiting : { w with receiver := some r', polling := some poll' }.waiting = w.waiting := by
    simp only [waiting, hr, Option.any_some, hsame]
  refine ⟨?_, ?_, ?_, h.polls⟩
  · rw [hwaiting]
    intro hrecorded
    rcases h.kept hrecorded with hanswered | hpending | hwaits | ⟨hnone, -⟩
    · exact .inl hanswered
    · exact .inr (.inl hpending)
    · exact .inr (.inr (.inl hwaits))
    · rw [hr] at hnone
      cases hnone
  · rw [hwaiting]
    exact h.sent
  · rintro _ ⟨⟩
    obtain ⟨-, -, hbegan⟩ := h.watched poll hpolling
    exact ⟨rfl, hanswers, fun htrue => hbegan (hdue ▸ htrue)⟩

theorem kept_ready {poll : Poll} {text : String} (h : Kept w)
    (hready : poll.outcome = .ready ⟨text⟩) :
    Kept { w with receiver := none, polling := none, polls := w.polls ++ [poll] } where
  kept := fun _ => .inl (by simp [answered, hready, ProbeOutcome.isReady])
  sent := fun hwaiting => by cases hwaiting
  watched := fun _ h => by cases h
  polls := by
    intro other hother hdue
    rcases List.mem_append.mp hother with hbefore | hnew
    · exact h.polls other hbefore hdue
    · cases List.mem_singleton.mp hnew
      rw [hready]
      rfl

/-- A poll that has reached the end of the feed had nothing to see. -/
theorem kept_empty {poll : Poll} (h : Kept w) (hundue : poll.due = false) :
    Kept { w with polling := none, polls := w.polls ++ [poll] } where
  kept := by
    intro hrecorded
    rcases h.kept hrecorded with hanswered | hrest
    · refine .inl ?_
      simp only [answered, List.any_append, Bool.or_eq_true]
      exact .inl hanswered
    · exact .inr hrest
  sent := h.sent
  watched := fun _ h => by cases h
  polls := by
    intro other hother hdue
    rcases List.mem_append.mp hother with hbefore | hnew
    · exact h.polls other hbefore hdue
    · cases List.mem_singleton.mp hnew
      rw [hundue] at hdue
      cases hdue

/-- An announcement recorded before the poll began is in none of the places left. -/
theorem undue_of_empty {r : Receiver} {poll : Poll} (h : Kept w)
    (hok : w.keepsAnnouncement .tryRecv = true) (hr : w.receiver = some r)
    (hpolling : w.polling = some poll) (hqueue : r.queue = []) (hlost : r.lost = 0) :
    poll.due = false := by
  cases hdue : poll.due with
  | false => rfl
  | true =>
    exfalso
    obtain ⟨-, -, hbegan⟩ := h.watched poll hpolling
    obtain ⟨hrecorded, hunanswered⟩ := hbegan hdue
    have hpending : w.pendingAnnouncement = false := by
      simpa [keepsAnnouncement, hpolling, hdue, hr, hqueue, hlost] using hok
    rcases h.kept hrecorded with hanswered | hstill | hwaiting | ⟨hnone, -⟩
    · rw [hunanswered] at hanswered
      cases hanswered
    · rw [hpending] at hstill
      cases hstill
    · simp [waiting, hr, Receiver.hasAnnouncement, hqueue] at hwaiting
    · rw [hr] at hnone
      cases hnone

theorem kept_tryRecv {r : Receiver} {poll : Poll} (h : Kept w)
    (hok : w.keepsAnnouncement .tryRecv = true) (hr : w.receiver = some r)
    (hpolling : w.polling = some poll) (hst : step room w .tryRecv = some w') : Kept w' := by
  obtain ⟨-, hanswers, -⟩ := h.watched poll hpolling
  simp only [step, hr, hpolling] at hst
  rcases tryRecv_cases r with ⟨hnone, hsame⟩ | ⟨text, hready⟩ | ⟨hempty, hkeep, hqueue, hlost⟩
  · rw [hnone] at hst
    cases hst
    refine kept_passed h hr hpolling rfl ?_ hsame
    rw [List.findSome?_append, hanswers]
    simp [hnone]
  · rw [hready] at hst
    cases hst
    exact kept_ready h (announced_append hanswers hready)
  · have hundue := undue_of_empty h hok hr hpolling hqueue hlost
    rw [hempty, hkeep, ← hr] at hst
    cases hst
    exact kept_empty h hundue

theorem capture_recorded {action : CaptureAction} {capture capture' : Capture}
    (hmoves : ∀ stream, action ≠ .turn stream) (hst : capture.step room action = some capture') :
    capture'.recorded = capture.recorded := by
  cases action with
  | write stream n =>
    obtain ⟨d, -, rfl⟩ := Option.map_eq_some_iff.mp hst
    rfl
  | read stream n =>
    obtain ⟨d, -, rfl⟩ := Option.map_eq_some_iff.mp hst
    rfl
  | turn stream => exact absurd rfl (hmoves stream)

theorem kept_step {action : WatchAction} (h : Kept w) (hok : w.keepsAnnouncement action = true)
    (hst : step room w action = some w') : Kept w' := by
  cases action with
  | write stream n =>
    obtain ⟨capture, hcapture, rfl⟩ := Option.map_eq_some_iff.mp hst
    exact kept_capture h (capture_recorded (fun _ heq => by cases heq) hcapture)
  | read stream n =>
    simp only [step] at hst
    split at hst
    · cases hst
    · obtain ⟨capture, hcapture, rfl⟩ := Option.map_eq_some_iff.mp hst
      exact kept_capture h (capture_recorded (fun _ heq => by cases heq) hcapture)
  | record stream =>
    simp only [step] at hst
    split at hst
    · cases hst
    · rename_i hfree
      have hfree : w.pending stream = none := by simpa using hfree
      obtain ⟨⟨text, d⟩, -, rfl⟩ := Option.map_eq_some_iff.mp hst
      cases text with
      | some text => exact kept_record h hfree
      | none =>
        simp only [Option.map_none, ← hfree, Function.update_eq_self]
        exact kept_capture h rfl
  | send stream =>
    obtain ⟨line, hline, rfl⟩ := Option.map_eq_some_iff.mp hst
    exact kept_send h hline hok
  | subscribe =>
    simp only [step] at hst
    split at hst
    · cases hst
    · rename_i hidle
      cases hst
      exact kept_subscribe h (by simpa using hidle) hok
  | poll =>
    simp only [step] at hst
    split at hst
    · cases hst
    · rename_i hguard
      cases hst
      simp only [Bool.or_eq_true, not_or, Bool.not_eq_true] at hguard
      exact kept_poll h (by simpa [Option.isSome_iff_ne_none] using hguard.1)
  | tryRecv =>
    obtain ⟨r, poll, hr, hpolling⟩ : ∃ r poll, w.receiver = some r ∧ w.polling = some poll := by
      simp only [step] at hst
      split at hst
      · exact ⟨_, _, ‹_›, ‹_›⟩
      · cases hst
    exact kept_tryRecv h hok hr hpolling hst
  | leave =>
    simp only [step] at hst
    split at hst
    · cases hst
    · rename_i hidle
      cases hst
      exact kept_leave h (by simpa using hidle)

/-- Where no step loses sight of an announcement, a poll that began after one had been recorded
says that the worker is ready, or an earlier one has said so. -/
theorem announcement_heard
    (hw : ReachableWhile (system room capacity output)
      (fun w action => w.keepsAnnouncement action = true) w) :
    ∀ poll ∈ w.polls, poll.due = true → poll.outcome.isReady = true := by
  refine (hw.invariant (I := Kept) ?_ fun w w' action _ h hok hst => ?_).polls
  · rintro _ rfl
    exact kept_spawned
  · exact kept_step h hok (show step room w action = some w' from hst)

def sampleOutput : LogStream → List UInt8
  | .stdout => Utf8.bytesOf "MEHOY-WORKER-READY\n"
  | .stderr => []

/-- The line is recorded and sent after the subscription. -/
theorem announcement_heard_watched :
    ∃ w, ReachableWhile (system 65536 512 sampleOutput)
        (fun w action => w.keepsAnnouncement action = true) w ∧
      (∃ poll ∈ w.polls, poll.due = true) ∧
        ∀ poll ∈ w.polls, poll.due = true → poll.outcome.isReady = true := by
  obtain ⟨w, hrun, poll, hpoll, hdue⟩ : ∃ w,
      (system 65536 512 sampleOutput).runWhile keepsAnnouncement (spawned 512 sampleOutput)
        [.subscribe, .write .stdout 19, .read .stdout 19, .record .stdout, .send .stdout, .poll,
          .tryRecv] = some w ∧
        ∃ poll ∈ w.polls, poll.due = true :=
    ⟨_, rfl, _, List.mem_singleton.mpr rfl, rfl⟩
  have hw : ReachableWhile (system 65536 512 sampleOutput)
      (fun w action => w.keepsAnnouncement action = true) w :=
    reachableWhile_of_run (fun _ _ h => h) (.init rfl) hrun
  exact ⟨w, hw, ⟨poll, hpoll, hdue⟩, announcement_heard hw⟩

/-- The line is sent before the subscription, and no poll finds it. -/
theorem announcement_missed :
    ¬ ∀ w, Reachable (system 65536 512 sampleOutput) w →
      ∀ poll ∈ w.polls, poll.due = true → poll.outcome.isReady = true := by
  intro hclaim
  obtain ⟨w, hrun, poll, hpoll, hdue, hnot⟩ : ∃ w,
      (system 65536 512 sampleOutput).run (spawned 512 sampleOutput)
        [.write .stdout 19, .read .stdout 19, .record .stdout, .send .stdout, .subscribe, .poll,
          .tryRecv] = some w ∧
        ∃ poll ∈ w.polls, poll.due = true ∧ poll.outcome.isReady = false :=
    ⟨_, rfl, ⟨true, [.empty]⟩, List.mem_singleton.mpr rfl, rfl, rfl⟩
  rw [hclaim w (reachable_of_run (.init rfl) hrun) poll hpoll hdue] at hnot
  cases hnot

end Watch
end MehoyRuntime.Worker
