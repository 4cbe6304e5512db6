import MehoyRuntime.Lib.System
import MehoyRuntime.Stream.Channel

/-!
# A producer and a consumer of one stream

Any use of the two halves of a stream, in any interleaving: the sink's methods, whose
futures may wait for room or be dropped, against `next` and `collect`. Which deltas were
taken, what was read and what `collect` returned are kept beside them.
-/

namespace MehoyRuntime.Stream
open MehoyRuntime.Core TransitionSystem

inductive GenerationOutcome
  | completed (result : GenerationResult)
  | cancelled (text : String) (cause : CancellationCause)
  deriving DecidableEq, Repr

def GenerationOutcome.text : GenerationOutcome → String
  | .completed result => result.text
  | .cancelled text _ => text

inductive Collecting
  | reading (text : String)
  | returned (result : Except GenerationStreamError GenerationOutcome)
  deriving DecidableEq, Repr

/-- What the loop of `collect` makes of one answer of `next`, with the text so far. -/
def collectItem (text : String) : Option StreamItem → Collecting
  | none => .returned (.error (.unexpectedEnd "the stream ended without a terminal event"))
  | some (.error error) => .returned (.error error)
  | some (.ok (.started _)) => .reading text
  | some (.ok (.textDelta _ delta)) => .reading (text ++ delta)
  | some (.ok (.completed _ summary)) =>
    .returned (.ok (.completed ⟨text, summary.finishReason, summary.usage⟩))
  | some (.ok (.cancelled _ cause)) => .returned (.ok (.cancelled text cause))

namespace Exchange

/-- Where the producer is: between its calls, in a `delta` that waits for room, in a method
that has consumed the sink and waits for room, or without its sink. -/
inductive Producing
  | idle
  | delta (text : String)
  | announcing (item : StreamItem)
  | gone
  deriving DecidableEq, Repr

/-- The call the consumer is in; `collect` began on a stream nothing had been read from. -/
inductive Reading
  | idle
  | next
  | collect (unread : Bool) (text : String)
  deriving DecidableEq, Repr

structure State where
  chan : Channel
  producing : Producing
  reading : Reading
  accepted : List String
  obtained : List (Option StreamItem)
  collected : List (Bool × Except GenerationStreamError GenerationOutcome)
  deriving DecidableEq

/-- What others that share the handle do to it. -/
inductive HandleCall
  | markRunning
  | requestCancellation (cause : CancellationCause)
  | finish (outcome : RequestState)
  deriving DecidableEq, Repr

def HandleCall.apply (handle : RequestHandle) : HandleCall → RequestHandle
  | .markRunning => handle.markRunning
  | .requestCancellation cause => (handle.requestCancellation cause).2
  | .finish outcome => (handle.finish outcome).2

inductive Label
  | delta (text : String)
  | complete (summary : GenerationSummary)
  | cancel (cause : CancellationCause)
  | fail (error : GenerationStreamError)
  | send
  | dropDelta
  | dropSink
  | handle (call : HandleCall)
  | callNext
  | callCollect
  | poll
  | dropReading
  | dropStream
  deriving DecidableEq

namespace State

def start (handle : RequestHandle) : State :=
  ⟨generationStream handle, .idle, .idle, [], [], []⟩

def requestId (s : State) : RequestId := s.chan.handle.id

/-- A method that consumes the sink, up to where it sends its item. -/
def finishSink (s : State) (handle : RequestHandle) (item : StreamItem) : Option State :=
  match s.producing with
  | .idle =>
    if s.chan.sinkFinished then some { s with chan := s.chan.dropSink, producing := .gone }
    else some { s with chan := { s.chan with handle, sinkFinished := true }, producing := .announcing item }
  | _ => none

def complete (s : State) (summary : GenerationSummary) : Option State :=
  s.finishSink (s.chan.handle.finish .completed).2 (.ok (.completed s.requestId summary))

def cancel (s : State) (cause : CancellationCause) : Option State :=
  s.finishSink ((s.chan.handle.requestCancellation cause).2.finish .cancelled).2
    (.ok (.cancelled s.requestId cause))

def fail (s : State) (error : GenerationStreamError) : Option State :=
  s.finishSink (s.chan.handle.finish .failed).2 (.error error)

/-- The send of the call the producer is in goes through, or finds the consumer gone. -/
def send (s : State) : Option State :=
  match s.producing with
  | .delta text =>
    match s.chan.send (.ok (.textDelta s.requestId text)) with
    | none => none
    | some (alive, chan) =>
      some { s with
        chan
        producing := .idle
        accepted := if alive then s.accepted ++ [text] else s.accepted }
  | .announcing item =>
    match s.chan.send item with
    | none => none
    | some (_, chan) => some { s with chan := chan.dropSink, producing := .gone }
  | _ => none

/-- One answer of `recv` to the call the consumer is in. -/
def poll (s : State) : Option State :=
  match s.reading, s.chan.next with
  | .next, some (out, chan) =>
    some { s with chan, reading := .idle, obtained := s.obtained ++ [out] }
  | .collect unread text, some (out, chan) =>
    match collectItem text out with
    | .reading text =>
      some { s with chan, reading := .collect unread text, obtained := s.obtained ++ [out] }
    | .returned result =>
      some { s with
        chan
        reading := .idle
        obtained := s.obtained ++ [out]
        collected := s.collected ++ [(unread, result)] }
  | _, _ => none

end State

def step (s : State) : Label → Option State
  | .delta text =>
    match s.producing, s.chan.delta text with
    | .idle, .returned _ => some s
    | .idle, .sending => some { s with producing := .delta text }
    | _, _ => none
  | .complete summary => s.complete summary
  | .cancel cause => s.cancel cause
  | .fail error => s.fail error
  | .send => s.send
  | .dropDelta =>
    match s.producing with
    | .delta _ => some { s with producing := .idle }
    | _ => none
  | .dropSink =>
    if s.producing = .gone then none else some { s with chan := s.chan.dropSink, producing := .gone }
  | .handle call => some { s with chan := { s.chan with handle := call.apply s.chan.handle } }
  | .callNext =>
    if s.reading = .idle ∧ s.chan.receiverAlive = true then some { s with reading := .next } else none
  | .callCollect =>
    if s.reading = .idle ∧ s.chan.receiverAlive = true then
      some { s with reading := .collect s.obtained.isEmpty "" }
    else none
  | .poll => s.poll
  | .dropReading => if s.reading = .idle then none else some { s with reading := .idle }
  | .dropStream =>
    if s.chan.receiverAlive then some { s with chan := s.chan.dropStream, reading := .idle } else none

def system : System State Label where
  init s := ∃ handle, s = .start handle
  step := step

/-! ### What has been sent -/

/-- `Started`, the deltas, and how the stream ended. -/
def script (id : RequestId) (texts : List String) (ended : Option StreamItem) : List StreamItem :=
  .ok (.started id) :: texts.map (fun text => .ok (.textDelta id text)) ++ ended.toList

def Ends (id : RequestId) : StreamItem → Prop
  | .ok (.completed other _) | .ok (.cancelled other _) => other = id
  | .error _ => True
  | .ok (.started _) | .ok (.textDelta _ _) => False

theorem Ends.terminal {id : RequestId} {item : StreamItem} (h : Ends id item) :
    isTerminalItem item = true := by
  rcases item with error | event
  · rfl
  · cases event <;> first | rfl | cases h

theorem script_some (id : RequestId) (texts : List String) (item : StreamItem) :
    script id texts (some item) = script id texts none ++ [item] := by
  simp [script]

theorem script_text (id : RequestId) (texts : List String) (text : String) :
    script id (texts ++ [text]) none = script id texts none ++ [.ok (.textDelta id text)] := by
  simp [script]

theorem script_open {id : RequestId} {texts : List String} {item : StreamItem}
    (h : item ∈ script id texts none) : isTerminalItem item = false := by
  simp only [script, Option.toList_none, List.append_nil, List.mem_cons, List.mem_map] at h
  rcases h with rfl | ⟨text, -, rfl⟩ <;> rfl

theorem script_texts {id : RequestId} (texts : List String) {ended : Option StreamItem}
    (h : ∀ item ∈ ended, Ends id item) : (script id texts ended).filterMap deltaText = texts := by
  have hopen : (script id texts none).filterMap deltaText = texts := by
    rw [script, Option.toList_none, List.append_nil, List.filterMap_cons_none rfl, List.filterMap_map]
    exact List.filterMap_some
  cases ended with
  | none => exact hopen
  | some item =>
    have hitem : deltaText item = none := by
      have hterminal := (h item rfl).terminal
      rcases item with error | event
      · rfl
      · cases event <;> first | rfl | cases hterminal
    rw [script_some, List.filterMap_append, hopen]
    simp [hitem]

theorem script_split {id : RequestId} {texts : List String} {ended : Option StreamItem}
    {first second : List StreamItem} (h : first ++ second = script id texts ended)
    (hfirst : first.any isTerminalItem = true) : ∃ item, ended = some item ∧ second = [] := by
  obtain ⟨item, hitem, hterminal⟩ := List.any_eq_true.mp hfirst
  cases ended with
  | none =>
    have hopen := script_open (h ▸ List.mem_append_left second hitem)
    rw [hterminal] at hopen
    cases hopen
  | some last =>
    refine ⟨last, rfl, ?_⟩
    by_contra hsecond
    -- The terminal item would be among those before the last one.
    have hinit : (first ++ second.dropLast) = script id texts none := by
      have hlast := congrArg List.dropLast h
      rwa [List.dropLast_append_of_ne_nil hsecond, script_some, List.dropLast_concat] at hlast
    have hopen := script_open (hinit ▸ List.mem_append_left second.dropLast hitem)
    rw [hterminal] at hopen
    cases hopen

/-- The channel's part of the invariant; `lost` is what the consumer left unread. -/
structure Sent (id : RequestId) (c : Channel) (accepted : List String) (ended : Option StreamItem)
    (lost : List StreamItem) : Prop where
  request : c.handle.id = id
  sent : c.items ++ lost = script id accepted ended
  kept : c.receiverAlive = true → lost = []
  dropped : c.receiverAlive = false → c.queue = []
  ends : ∀ item ∈ ended, Ends id item
  finished : c.stream.finished = c.delivered.any isTerminalItem

section Sending
variable {id : RequestId} {c c' : Channel} {accepted : List String} {ended : Option StreamItem}
  {lost : List StreamItem}

theorem Sent.start (handle : RequestHandle) :
    Sent handle.id (generationStream handle) [] none [] where
  request := rfl
  sent := rfl
  kept _ := rfl
  dropped h := by cases h
  ends item h := by cases h
  finished := rfl

/-- Once a terminal item is read, everything is. -/
theorem Sent.complete (h : Sent id c accepted ended lost) (hf : c.stream.finished = true) :
    ∃ item, ended = some item ∧ c.queue = [] ∧ c.delivered = script id accepted ended := by
  rw [h.finished] at hf
  have hsent : c.delivered ++ (c.queue ++ lost) = script id accepted ended := by
    rw [← List.append_assoc]
    exact h.sent
  obtain ⟨item, hended, hrest⟩ := script_split hsent hf
  obtain ⟨hqueue, -⟩ := List.append_eq_nil_iff.mp hrest
  rw [hrest, List.append_nil] at hsent
  exact ⟨item, hended, hqueue, hsent⟩

theorem Sent.push (h : Sent id c accepted none lost) (halive : c.receiverAlive = true)
    {item : StreamItem} {accepted' : List String} {ended' : Option StreamItem}
    (hscript : script id accepted' ended' = script id accepted none ++ [item])
    (hends : ∀ item ∈ ended', Ends id item) :
    Sent id { c with queue := c.queue ++ [item] } accepted' ended' lost where
  request := h.request
  sent := by
    have hsent := h.sent
    rw [h.kept halive, List.append_nil] at hsent ⊢
    rw [hscript, ← hsent]
    exact (List.append_assoc c.delivered c.queue [item]).symm
  kept := h.kept
  dropped hgone := by
    rw [show c.receiverAlive = false from hgone] at halive
    cases halive
  ends := hends
  finished := h.finished

theorem Sent.drop (h : Sent id c accepted ended lost) : Sent id c.dropSink accepted ended lost where
  request := by
    rw [← h.request]
    exact (Channel.dropSink_later c).id
  sent := h.sent
  kept := h.kept
  dropped := h.dropped
  ends := h.ends
  finished := h.finished

theorem Sent.abandon (h : Sent id c accepted ended lost) (halive : c.receiverAlive = true) :
    Sent id c.dropStream accepted ended c.queue where
  request := h.request
  sent := by
    have hsent := h.sent
    rw [h.kept halive, List.append_nil] at hsent
    rw [← hsent, Channel.items, Channel.items, Channel.dropStream, List.append_nil]
  kept hgone := by cases hgone
  dropped _ := rfl
  ends := h.ends
  finished := h.finished

/-- What one answer of `next` is to a consumer that is still there. -/
theorem Sent.next (h : Sent id c accepted ended lost) (halive : c.receiverAlive = true)
    {out : Option StreamItem} (hnext : c.next = some (out, c')) :
    (c.stream.finished = true ∧ out = none ∧ c' = c) ∨
    ∃ item ended', c.stream.finished = false ∧ out = some item ∧
      c'.delivered = c.delivered ++ [item] ∧ (ended' = ended ∨ c.senderAlive = false) ∧
      Sent id c' accepted ended' lost := by
  rcases Channel.next_cases hnext with ⟨hf, hout, hc⟩ | ⟨hf, item, rest, hqueue, hout, rfl⟩ |
    ⟨hf, hqueue, hgone, hout, rfl⟩
  · exact .inl ⟨hf, hout, hc⟩
  · refine .inr ⟨item, ended, hf, hout, rfl, .inl rfl, ?_⟩
    refine ⟨h.request, ?_, h.kept, ?_, h.ends, ?_⟩
    · rw [← h.sent]
      simp [Channel.items, hqueue]
    · intro hdead
      rw [show c.receiverAlive = false from hdead] at halive
      cases halive
    · rw [Channel.observe_finished, h.finished]
      simp
  · have hended : ended = none := by
      cases hlast : ended with
      | none => rfl
      | some last =>
        have hsent := h.sent
        rw [h.kept halive, List.append_nil, hlast, script_some, Channel.items, hqueue,
          List.append_nil] at hsent
        rw [h.finished, hsent] at hf
        simp [(h.ends last (by rw [hlast]; rfl)).terminal] at hf
    refine .inr ⟨Channel.producerGone, some Channel.producerGone, hf, hout, rfl, .inr hgone, ?_⟩
    refine ⟨by rw [← h.request]; exact RequestHandle.finish_id _ _, ?_, h.kept,
      fun _ => hqueue, ?_, ?_⟩
    · have hsent := h.sent
      rw [h.kept halive, List.append_nil, hended] at hsent
      rw [h.kept halive, List.append_nil, script_some, ← hsent]
      simp [Channel.items, hqueue]
    · intro item hitem
      cases hitem
      trivial
    · simp [Channel.producerGone, isTerminalItem]

end Sending

/-! ### Every step keeps the grammar -/

structure Inv (id : RequestId) (s : State) (ended : Option StreamItem) (lost : List StreamItem) :
    Prop where
  chan : Sent id s.chan s.accepted ended lost
  reading : s.chan.receiverAlive = false → s.reading = .idle
  texts : "" ∉ s.accepted
  pending : ∀ text, s.producing = .delta text → text ≠ ""
  announcing : ∀ item, s.producing = .announcing item → Ends id item
  held : s.producing ≠ .gone → ended = none ∧ s.chan.senderAlive = true
  gone : s.producing = .gone → s.chan.senderAlive = false
  obtained : ∃ k, s.obtained = s.chan.delivered.map some ++ List.replicate k none ∧
    (k ≠ 0 → s.chan.stream.finished = true)
  collecting : ∀ text, s.reading = .collect true text → s.chan.stream.finished = false ∧
    text = String.join (s.chan.delivered.filterMap deltaText)
  collected : ∀ result, (true, result) ∈ s.collected → s.chan.stream.finished = true ∧
    ∃ item, ended = some item ∧ collectItem (String.join s.accepted) (some item) = .returned result

variable {id : RequestId} {s s' : State} {ended ended' : Option StreamItem} {lost : List StreamItem}

theorem Inv.start (handle : RequestHandle) : Inv handle.id (.start handle) none [] where
  chan := .start handle
  reading h := by cases h
  texts := by simp [State.start]
  pending text h := by cases h
  announcing item h := by cases h
  held _ := ⟨rfl, rfl⟩
  gone h := by cases h
  obtained := ⟨0, rfl, fun h => absurd rfl h⟩
  collecting text h := by cases h
  collected result h := by cases h

theorem Inv.dropSink (h : Inv id s ended lost) :
    Inv id { s with chan := s.chan.dropSink, producing := .gone } ended lost :=
  { h with
    chan := h.chan.drop
    pending := fun text hp => by cases hp
    announcing := fun item hp => by cases hp
    held := fun hp => absurd rfl hp
    gone := fun _ => rfl }

theorem Inv.delta {text : String} (h : Inv id s ended lost) (hp : s.producing = .idle)
    (htext : text ≠ "") : Inv id { s with producing := .delta text } ended lost :=
  { h with
    pending := fun other hother => by
      cases hother
      exact htext
    announcing := fun item hitem => by cases hitem
    held := fun _ => h.held (by simp [hp])
    gone := fun hgone => by cases hgone }

theorem Inv.finishSink {handle : RequestHandle} {item : StreamItem} (h : Inv id s ended lost)
    (hid : handle.id = s.requestId) (hitem : Ends id item)
    (hst : s.finishSink handle item = some s') : Inv id s' ended lost := by
  unfold State.finishSink at hst
  split at hst
  · rename_i hp
    split at hst <;> cases hst
    · exact h.dropSink
    · exact { h with
        chan := ⟨hid.trans h.chan.request, h.chan.sent, h.chan.kept, h.chan.dropped, h.chan.ends,
          h.chan.finished⟩
        pending := fun text htext => by cases htext
        announcing := fun other hother => by
          cases hother
          exact hitem
        held := fun _ => h.held (by simp [hp])
        gone := fun hgone => by cases hgone }
  · cases hst

theorem Inv.send (h : Inv id s ended lost) (hst : s.send = some s') :
    ∃ ended', Inv id s' ended' lost := by
  unfold State.send at hst
  split at hst
  · rename_i text hp
    obtain ⟨rfl, halive⟩ := h.held (by simp [hp])
    split at hst
    · cases hst
    · rename_i taken chan hsend
      cases hst
      rcases Channel.send_cases hsend with ⟨-, rfl, rfl⟩ | ⟨hreceiver, -, rfl, rfl⟩
      · exact ⟨none, { h with
          pending := fun text htext => by cases htext
          announcing := fun item hitem => by cases hitem
          held := fun _ => h.held (by simp [hp])
          gone := fun hgone => by cases hgone }⟩
      · refine ⟨none, { h with
          chan := ?_
          texts := ?_
          pending := fun text htext => by cases htext
          announcing := fun item hitem => by cases hitem
          held := fun _ => h.held (by simp [hp])
          gone := fun hgone => by cases hgone
          collected := ?_ }⟩
        · exact h.chan.push hreceiver (by rw [← h.chan.request]; exact script_text _ _ _) h.chan.ends
        · simp only [if_true, List.mem_append, List.mem_singleton, not_or]
          exact ⟨h.texts, (h.pending text hp).symm⟩
        · intro result hresult
          obtain ⟨-, item, hitem, -⟩ := h.collected result hresult
          cases hitem
  · rename_i item hp
    obtain ⟨rfl, halive⟩ := h.held (by simp [hp])
    split at hst
    · cases hst
    · rename_i taken chan hsend
      cases hst
      rcases Channel.send_cases hsend with ⟨-, rfl, rfl⟩ | ⟨hreceiver, -, rfl, rfl⟩
      · exact ⟨none, h.dropSink⟩
      · have hsent : Sent id { s.chan with queue := s.chan.queue ++ [item] } s.accepted (some item) lost :=
          h.chan.push hreceiver (script_some _ _ _) (by
            intro other hother
            cases hother
            exact h.announcing item hp)
        refine ⟨some item, { h with
          chan := hsent.drop
          pending := fun text htext => by cases htext
          announcing := fun item hitem => by cases hitem
          held := fun hheld => absurd rfl hheld
          gone := fun _ => rfl
          collected := ?_ }⟩
        intro result hresult
        obtain ⟨-, item, hitem, -⟩ := h.collected result hresult
        cases hitem
  · cases hst

theorem collectItem_reading {text text' : String} {item : StreamItem}
    (h : collectItem text (some item) = .reading text') :
    isTerminalItem item = false ∧ text' = text ++ String.join (deltaText item).toList := by
  rcases item with error | event
  · cases h
  · cases event <;> cases h <;> simp [isTerminalItem, deltaText]

theorem collectItem_returned {text : String} {item : StreamItem}
    {result : Except GenerationStreamError GenerationOutcome}
    (h : collectItem text (some item) = .returned result) : isTerminalItem item = true := by
  rcases item with error | event
  · rfl
  · cases event <;> first | rfl | cases h

theorem collectItem_text {text : String} {item : StreamItem} {outcome : GenerationOutcome}
    (h : collectItem text (some item) = .returned (.ok outcome)) : outcome.text = text := by
  rcases item with error | event
  · cases h
  · cases event <;> cases h <;> rfl

theorem next_delivered {c c' : Channel} {out : Option StreamItem} (hf : c.stream.finished = false)
    (h : c.next = some (out, c')) : ∃ item, out = some item ∧ c'.delivered = c.delivered ++ [item] := by
  rcases Channel.next_cases h with ⟨hfinished, -⟩ | ⟨-, item, rest, -, hout, rfl⟩ | ⟨-, -, -, hout, rfl⟩
  · rw [hf] at hfinished
    cases hfinished
  · exact ⟨item, hout, rfl⟩
  · exact ⟨_, hout, rfl⟩

theorem next_keeps {c c' : Channel} {out : Option StreamItem} (h : c.next = some (out, c')) :
    c'.receiverAlive = c.receiverAlive ∧ c'.senderAlive = c.senderAlive := by
  rcases Channel.next_cases h with ⟨-, -, rfl⟩ | ⟨-, item, rest, -, -, rfl⟩ | ⟨-, -, -, -, rfl⟩ <;>
    exact ⟨rfl, rfl⟩

theorem Inv.alive (h : Inv id s ended lost) (hreading : s.reading ≠ .idle) :
    s.chan.receiverAlive = true := by
  by_contra hdead
  exact hreading (h.reading (Bool.eq_false_iff.mpr hdead))

theorem Inv.read {out : Option StreamItem} {chan : Channel} (h : Inv id s ended lost)
    (halive : s.chan.receiverAlive = true) (hnext : s.chan.next = some (out, chan)) :
    ∃ ended', Inv id { s with chan, reading := .idle, obtained := s.obtained ++ [out] } ended' lost := by
  obtain ⟨k, hobtained, hk⟩ := h.obtained
  rcases h.chan.next halive hnext with ⟨hf, rfl, rfl⟩ |
    ⟨item, ended', hf, rfl, hdelivered, hended, hsent⟩
  · refine ⟨ended, { h with
      reading := fun _ => rfl
      obtained := ⟨k + 1, ?_, fun _ => hf⟩
      collecting := fun text htext => by cases htext }⟩
    simp only [hobtained, List.append_assoc, List.replicate_succ']
  · have hzero : k = 0 := by
      by_contra hpos
      rw [hk hpos] at hf
      cases hf
    refine ⟨ended', { h with
      chan := hsent
      reading := fun _ => rfl
      held := ?_
      gone := ?_
      obtained := ⟨0, ?_, fun hpos => absurd rfl hpos⟩
      collecting := fun text htext => by cases htext
      collected := ?_ }⟩
    · intro hheld
      obtain ⟨hnone, hopen⟩ := h.held hheld
      refine ⟨?_, (next_keeps hnext).2.trans hopen⟩
      rcases hended with hsame | hclosed
      · exact hsame.trans hnone
      · rw [hopen] at hclosed
        cases hclosed
    · exact fun hgone => (next_keeps hnext).2.trans (h.gone hgone)
    · simp [hobtained, hzero, hdelivered]
    · intro result hresult
      obtain ⟨hfinished, -⟩ := h.collected result hresult
      rw [hf] at hfinished
      cases hfinished

/-- `collect` goes on: it has the text of everything delivered. -/
theorem Inv.collecting_on {out : Option StreamItem} {chan : Channel} {text text' : String}
    (h : Inv id s ended lost) (hreading : s.reading = .collect true text)
    (hnext : s.chan.next = some (out, chan)) (hsent : Sent id chan s.accepted ended' lost)
    (hitem : collectItem text out = .reading text') : chan.stream.finished = false ∧
      text' = String.join (chan.delivered.filterMap deltaText) := by
  obtain ⟨hf, rfl⟩ := h.collecting text hreading
  obtain ⟨item, rfl, hdelivered⟩ := next_delivered hf hnext
  obtain ⟨hopen, rfl⟩ := collectItem_reading hitem
  constructor
  · rw [hsent.finished, hdelivered, List.any_append, ← h.chan.finished, hf]
    simpa using hopen
  · rw [hdelivered, List.filterMap_append, String.join_append]
    cases htext : deltaText item <;> simp [htext]

/-- `collect` is back with a terminal item: it has the text of everything accepted. -/
theorem Inv.collected_all {out : Option StreamItem} {chan : Channel} {text : String}
    {result : Except GenerationStreamError GenerationOutcome}
    (h : Inv id s ended lost) (hreading : s.reading = .collect true text)
    (hnext : s.chan.next = some (out, chan)) (hsent : Sent id chan s.accepted ended' lost)
    (hitem : collectItem text out = .returned result) : chan.stream.finished = true ∧
      ∃ item, ended' = some item ∧
        collectItem (String.join s.accepted) (some item) = .returned result := by
  obtain ⟨hf, rfl⟩ := h.collecting text hreading
  obtain ⟨item, rfl, hdelivered⟩ := next_delivered hf hnext
  have hfinished : chan.stream.finished = true := by
    rw [hsent.finished, hdelivered, List.any_append]
    simp [collectItem_returned hitem]
  obtain ⟨last, rfl, -, hall⟩ := hsent.complete hfinished
  rw [script_some, hdelivered] at hall
  obtain ⟨hbefore, hlast⟩ := List.append_inj' hall rfl
  cases hlast
  refine ⟨hfinished, item, rfl, ?_⟩
  rwa [hbefore, script_texts _ (by simp)] at hitem

theorem Inv.poll (h : Inv id s ended lost) (hst : s.poll = some s') :
    ∃ ended', Inv id s' ended' lost := by
  unfold State.poll at hst
  split at hst
  · rename_i out chan hreading hnext
    cases hst
    exact h.read (h.alive (by simp [hreading])) hnext
  · rename_i unread text out chan hreading hnext
    have halive := h.alive (by simp [hreading])
    obtain ⟨ended', hread⟩ := h.read halive hnext
    split at hst
    · rename_i text' hitem
      cases hst
      refine ⟨ended', { hread with reading := ?_, collecting := ?_ }⟩
      · intro hdead
        rw [(next_keeps hnext).1, halive] at hdead
        cases hdead
      · intro other hother
        cases hother
        exact h.collecting_on hreading hnext hread.chan hitem
    · rename_i result hitem
      cases hst
      refine ⟨ended', { hread with collected := ?_ }⟩
      intro other hother
      rcases List.mem_append.mp hother with hbefore | hnow
      · exact hread.collected other hbefore
      · cases List.mem_singleton.mp hnow
        exact h.collected_all hreading hnext hread.chan hitem
  · cases hst

theorem HandleCall.apply_id (handle : RequestHandle) (call : HandleCall) :
    (call.apply handle).id = handle.id := by
  cases call with
  | markRunning => exact RequestHandle.markRunning_id handle
  | requestCancellation cause => exact (RequestHandle.later_requestCancellation handle cause).id
  | finish outcome => exact RequestHandle.finish_id handle outcome

theorem Inv.handle {handle : RequestHandle} (h : Inv id s ended lost)
    (hid : handle.id = s.requestId) : Inv id { s with chan := { s.chan with handle } } ended lost :=
  { h with
    chan := ⟨hid.trans h.chan.request, h.chan.sent, h.chan.kept, h.chan.dropped, h.chan.ends,
      h.chan.finished⟩ }

theorem Inv.call {reading : Reading} (h : Inv id s ended lost)
    (hreading : reading = .idle ∨ s.chan.receiverAlive = true)
    (hcollect : ∀ text, reading = .collect true text → s.obtained = [] ∧ text = "") :
    Inv id { s with reading } ended lost :=
  { h with
    reading := fun hdead => by
      rcases hreading with hidle | halive
      · exact hidle
      · rw [show s.chan.receiverAlive = false from hdead] at halive
        cases halive
    collecting := fun text htext => by
      obtain ⟨hnone, rfl⟩ := hcollect text htext
      obtain ⟨k, hobtained, -⟩ := h.obtained
      rw [hnone] at hobtained
      obtain ⟨hdelivered, -⟩ := List.append_eq_nil_iff.mp hobtained.symm
      rw [List.map_eq_nil_iff] at hdelivered
      constructor
      · rw [h.chan.finished, hdelivered]
        rfl
      · simp [hdelivered] }

theorem Inv.dropStream (h : Inv id s ended lost) (halive : s.chan.receiverAlive = true) :
    Inv id { s with chan := s.chan.dropStream, reading := .idle } ended s.chan.queue :=
  { h with
    chan := h.chan.abandon halive
    reading := fun _ => rfl
    collecting := fun text htext => by cases htext }

theorem inv_step {a : Label} (h : Inv id s ended lost) (hst : step s a = some s') :
    ∃ ended' lost', Inv id s' ended' lost' := by
  cases a with
  | delta text =>
    simp only [step] at hst
    split at hst <;> cases hst
    · exact ⟨_, _, h⟩
    · rename_i hp hdelta
      exact ⟨_, _, h.delta hp (Channel.delta_sending hdelta)⟩
  | complete summary =>
    have hitem : Ends id (.ok (.completed s.requestId summary)) := h.chan.request
    exact ⟨_, _, h.finishSink (RequestHandle.finish_id _ _) hitem hst⟩
  | cancel cause =>
    have hitem : Ends id (.ok (.cancelled s.requestId cause)) := h.chan.request
    refine ⟨_, _, h.finishSink ?_ hitem hst⟩
    exact (RequestHandle.finish_id _ _).trans (RequestHandle.later_requestCancellation _ _).id
  | fail error =>
    have hitem : Ends id (.error error) := trivial
    exact ⟨_, _, h.finishSink (RequestHandle.finish_id _ _) hitem hst⟩
  | send =>
    obtain ⟨ended', hsent⟩ := h.send hst
    exact ⟨_, _, hsent⟩
  | dropDelta =>
    simp only [step] at hst
    split at hst <;> cases hst
    rename_i hp
    exact ⟨_, _, { h with
      pending := fun text htext => by cases htext
      announcing := fun item hitem => by cases hitem
      held := fun _ => h.held (by simp [hp])
      gone := fun hgone => by cases hgone }⟩
  | dropSink =>
    simp only [step] at hst
    split at hst <;> cases hst
    exact ⟨_, _, h.dropSink⟩
  | handle call =>
    cases hst
    exact ⟨_, _, h.handle (call.apply_id _)⟩
  | callNext =>
    simp only [step] at hst
    split at hst <;> cases hst
    rename_i hcall
    exact ⟨_, _, h.call (.inr hcall.2) (fun text htext => by cases htext)⟩
  | callCollect =>
    simp only [step] at hst
    split at hst <;> cases hst
    rename_i hcall
    refine ⟨_, _, h.call (.inr hcall.2) (fun text htext => ?_)⟩
    injection htext with hunread htext
    exact ⟨List.isEmpty_iff.mp hunread, htext.symm⟩
  | poll =>
    obtain ⟨ended', hpolled⟩ := h.poll hst
    exact ⟨_, _, hpolled⟩
  | dropReading =>
    simp only [step] at hst
    split at hst <;> cases hst
    exact ⟨_, _, h.call (.inl rfl) (fun text htext => by cases htext)⟩
  | dropStream =>
    simp only [step] at hst
    split at hst <;> cases hst
    rename_i halive
    exact ⟨_, _, h.dropStream halive⟩

theorem inv_run {labels : List Label} (h : Inv id s ended lost)
    (hrun : system.run s labels = some s') : ∃ ended' lost', Inv id s' ended' lost' := by
  refine run_preserves (I := fun t => ∃ ended' lost', Inv id t ended' lost') ?_ hrun ⟨_, _, h⟩
  rintro t t' a hst ⟨ended', lost', ht⟩
  exact inv_step ht hst

theorem reachable_inv (hs : Reachable system s) : ∃ id ended lost, Inv id s ended lost := by
  induction hs with
  | init hi =>
    obtain ⟨handle, rfl⟩ := hi
    exact ⟨_, _, _, Inv.start handle⟩
  | step _ _ hst ih =>
    obtain ⟨id, ended, lost, h⟩ := ih
    obtain ⟨ended', lost', h'⟩ := inv_step h hst
    exact ⟨id, ended', lost', h'⟩

/-! ### A consumer that keeps reading -/

/-- What was obtained is `Started`, these deltas, this end if any, and then nothing. -/
structure Grammar (id : RequestId) (texts : List String) (ended : Option StreamItem)
    (obtained : List (Option StreamItem)) : Prop where
  shape : ∃ k, obtained = (script id texts ended).map some ++ List.replicate k none ∧
    (ended = none → k = 0)
  texts : "" ∉ texts
  ends : ∀ item ∈ ended, Ends id item

/-- The consumer calls, polls or drops its call; it does not drop the stream. -/
def keepsReading : Label → Bool
  | .callNext | .callCollect | .poll | .dropReading => true
  | _ => false

theorem poll_cases (h : s.poll = some s') :
    ∃ out, s.chan.next = some (out, s'.chan) ∧ s'.accepted = s.accepted := by
  unfold State.poll at h
  split at h
  · cases h
    exact ⟨_, ‹_›, rfl⟩
  · split at h <;> cases h <;> exact ⟨_, ‹_›, rfl⟩
  · cases h

theorem next_shrinks {c c' : Channel} {out : Option StreamItem} (h : c.next = some (out, c')) :
    c'.stream.finished = true ∨ c'.queue.length + 1 = c.queue.length := by
  rcases Channel.next_cases h with ⟨hf, -, rfl⟩ | ⟨-, item, rest, hqueue, -, rfl⟩ | ⟨-, -, -, -, rfl⟩
  · exact .inl hf
  · exact .inr (by simp [hqueue])
  · exact .inl rfl

theorem next_finished {c c' : Channel} {out : Option StreamItem} (h : c.next = some (out, c'))
    (hf : c.stream.finished = true) : c'.stream.finished = true := by
  rcases Channel.next_cases h with ⟨-, -, rfl⟩ | ⟨hopen, -⟩ | ⟨hopen, -⟩
  · exact hf
  · rw [hf] at hopen
    cases hopen
  · rw [hf] at hopen
    cases hopen

theorem keeps_step {a : Label} (ha : keepsReading a = true) (hst : step s a = some s') :
    s'.accepted = s.accepted ∧
      (s.chan.stream.finished = true → s'.chan.stream.finished = true) ∧
      (s'.chan.stream.finished = true ∨
        s'.chan.queue.length + [a].count .poll = s.chan.queue.length) := by
  cases a with
  | poll =>
    obtain ⟨out, hnext, haccepted⟩ := poll_cases hst
    exact ⟨haccepted, next_finished hnext, next_shrinks hnext⟩
  | callNext | callCollect | dropReading =>
    simp only [step] at hst
    split at hst <;> cases hst
    exact ⟨rfl, fun hf => hf, .inr rfl⟩
  | delta | complete | cancel | fail | send | dropDelta | dropSink | handle | dropStream => cases ha

theorem keeps_run {labels : List Label} {t : State} (ha : ∀ a ∈ labels, keepsReading a = true)
    (hrun : system.run s labels = some t) :
    t.accepted = s.accepted ∧
      (s.chan.stream.finished = true → t.chan.stream.finished = true) ∧
      (t.chan.stream.finished = true ∨
        t.chan.queue.length + labels.count .poll = s.chan.queue.length) := by
  induction labels generalizing s with
  | nil =>
    cases hrun
    exact ⟨rfl, fun hf => hf, .inr rfl⟩
  | cons a labels ih =>
    obtain ⟨u, hst, hrun⟩ := Option.bind_eq_some_iff.mp hrun
    obtain ⟨haccepted, hstays, hqueue⟩ := keeps_step (ha a List.mem_cons_self) hst
    obtain ⟨haccepted', hstays', hqueue'⟩ :=
      ih (fun b hb => ha b (List.mem_cons_of_mem a hb)) hrun
    refine ⟨haccepted'.trans haccepted, fun hf => hstays' (hstays hf), ?_⟩
    rcases hqueue with hf | hqueue
    · exact .inl (hstays' hf)
    · rcases hqueue' with hf | hqueue'
      · exact .inl hf
      · refine .inr ?_
        rw [← List.singleton_append, List.count_append]
        omega

theorem Inv.grammar (h : Inv id s ended lost) (hf : s.chan.stream.finished = true) :
    ∃ item, ended = some item ∧ Grammar id s.accepted (some item) s.obtained := by
  obtain ⟨item, rfl, -, hall⟩ := h.chan.complete hf
  obtain ⟨k, hobtained, -⟩ := h.obtained
  exact ⟨item, rfl, ⟨k, by rw [hobtained, hall], fun hnone => by cases hnone⟩, h.texts, h.chan.ends⟩

theorem Inv.delivered_prefix (h : Inv id s ended lost) (hf : s.chan.stream.finished = false) :
    s.chan.delivered <+: script id s.accepted none := by
  have hprefix : s.chan.delivered <+: script id s.accepted ended := by
    rw [← h.chan.sent, Channel.items, List.append_assoc]
    exact List.prefix_append _ _
  cases ended with
  | none => exact hprefix
  | some item =>
    rw [script_some] at hprefix
    refine (List.prefix_concat_iff.mp hprefix).resolve_left fun hall => ?_
    rw [h.chan.finished, hall] at hf
    simp [(h.chan.ends item rfl).terminal] at hf

theorem Inv.obtained_grammar (h : Inv id s ended lost) :
    s.obtained = [] ∨ ∃ texts ended', Grammar id texts ended' s.obtained ∧ texts <+: s.accepted ∧
      (ended' ≠ none → texts = s.accepted) := by
  cases hf : s.chan.stream.finished with
  | true =>
    obtain ⟨item, -, hgrammar⟩ := h.grammar hf
    exact .inr ⟨s.accepted, some item, hgrammar, List.prefix_refl _, fun _ => rfl⟩
  | false =>
    obtain ⟨k, hobtained, hk⟩ := h.obtained
    obtain rfl : k = 0 := by
      by_contra hpos
      rw [hk hpos] at hf
      cases hf
    rw [List.replicate_zero, List.append_nil] at hobtained
    have htake := List.prefix_iff_eq_take.mp (h.delivered_prefix hf)
    cases hlength : s.chan.delivered.length with
    | zero =>
      rw [List.length_eq_zero_iff.mp hlength] at hobtained
      exact .inl hobtained
    | succ n =>
      have hdelivered : s.chan.delivered = script id (s.accepted.take n) none := by
        rw [htake, hlength]
        simp [script, List.map_take]
      refine .inr ⟨s.accepted.take n, none, ⟨⟨0, by simp [hobtained, hdelivered], fun _ => rfl⟩,
        fun hempty => h.texts (List.mem_of_mem_take hempty), fun item hitem => by cases hitem⟩,
        List.take_prefix n s.accepted, fun hended => absurd rfl hended⟩

/-- Nothing that was accepted is lost to a consumer that is still there. -/
theorem Inv.queued_grammar (h : Inv id s ended lost) (halive : s.chan.receiverAlive = true) :
    Grammar id s.accepted ended (s.obtained ++ s.chan.queue.map some) := by
  obtain ⟨k, hobtained, hk⟩ := h.obtained
  have hsent := h.chan.sent
  rw [h.chan.kept halive, List.append_nil, Channel.items] at hsent
  refine ⟨⟨k, ?_, fun hended => ?_⟩, h.texts, h.chan.ends⟩
  · by_cases hzero : k = 0
    · rw [hobtained, ← hsent, hzero]
      simp
    · obtain ⟨item, -, hqueue, hall⟩ := h.chan.complete (hk hzero)
      simp [hobtained, hqueue, hall]
  · by_contra hpos
    obtain ⟨item, hsome, -⟩ := h.chan.complete (hk hpos)
    rw [hended] at hsome
    cases hsome

/-- A consumer that waits is answered where there is something to read or the producer is
gone. -/
theorem Inv.poll_ready (h : Inv id s ended lost) (hreading : s.reading ≠ .idle)
    (hready : s.chan.queue ≠ [] ∨ s.producing = .gone) : (step s .poll).isSome = true := by
  have hnext : ∃ out chan, s.chan.next = some (out, chan) := by
    unfold Channel.next
    split
    · exact ⟨_, _, rfl⟩
    · split
      · exact ⟨_, _, rfl⟩
      · rename_i hqueue
        rw [h.gone (hready.resolve_left (fun hne => hne hqueue))]
        exact ⟨_, _, rfl⟩
  obtain ⟨out, chan, hnext⟩ := hnext
  simp only [step, State.poll, hnext]
  cases hr : s.reading with
  | idle => exact absurd hr hreading
  | next => rfl
  | collect unread text =>
    dsimp only
    split <;> rfl

/-- Every stream, however it is used: what the consumer obtains, that nothing accepted is
lost to one that goes on reading, that it is told an end once the producer is gone, and what
`collect` returns where nothing was read before it. -/
theorem stream_lossless (hs : Reachable system s) :
    (s.obtained = [] ∨ ∃ texts ended, Grammar s.requestId texts ended s.obtained ∧
      texts <+: s.accepted ∧ (ended ≠ none → texts = s.accepted)) ∧
    (s.chan.receiverAlive = true →
      ∃ ended, Grammar s.requestId s.accepted ended (s.obtained ++ s.chan.queue.map some)) ∧
    (s.reading ≠ .idle → s.chan.queue ≠ [] ∨ s.producing = .gone → (step s .poll).isSome = true) ∧
    (∀ labels t, (∀ a ∈ labels, keepsReading a = true) → system.run s labels = some t →
      s.chan.queue.length < labels.count .poll →
        ∃ item, Grammar s.requestId s.accepted (some item) t.obtained) ∧
    ∀ outcome, (true, .ok outcome) ∈ s.collected →
      outcome.text = String.join s.accepted ∧
        ∃ item, Grammar s.requestId s.accepted (some item) s.obtained ∧
          collectItem (String.join s.accepted) (some item) = .returned (.ok outcome) := by
  obtain ⟨id, ended, lost, h⟩ := reachable_inv hs
  obtain rfl : s.requestId = id := h.chan.request
  refine ⟨h.obtained_grammar, fun halive => ⟨ended, h.queued_grammar halive⟩, h.poll_ready, ?_, ?_⟩
  · intro labels t hreads hrun hpolls
    obtain ⟨haccepted, -, hqueue⟩ := keeps_run hreads hrun
    obtain ⟨ended', lost', ht⟩ := inv_run h hrun
    obtain ⟨item, -, hgrammar⟩ := ht.grammar (hqueue.resolve_right (by omega))
    exact ⟨item, haccepted ▸ hgrammar⟩
  · intro outcome houtcome
    obtain ⟨hf, item, rfl, hitem⟩ := h.collected _ houtcome
    obtain ⟨other, hother, hgrammar⟩ := h.grammar hf
    cases hother
    exact ⟨collectItem_text hitem, item, hgrammar, hitem⟩

/-- Two deltas, one of them empty, a completion, and a `collect` after an interrupted call. -/
def collectedWhole : List Label :=
  [.callNext, .dropReading, .delta "a", .send, .delta "", .delta "b", .callCollect, .poll, .send,
    .complete ⟨.stop, none⟩, .poll, .send, .poll, .poll, .callNext, .poll]

theorem stream_lossless_collected :
    ∃ s, system.run (.start (.new ⟨1⟩)) collectedWhole = some s ∧
      s.collected = [(true, .ok (.completed ⟨"ab", .stop, none⟩))] ∧
      "ab" = String.join s.accepted := by
  obtain ⟨s, hrun, hcollected⟩ : ∃ s, system.run (.start (.new ⟨1⟩)) collectedWhole = some s ∧
      s.collected = [(true, .ok (.completed ⟨"ab", .stop, none⟩))] := ⟨_, rfl, by decide⟩
  have hs : Reachable system s := reachable_of_run (.init ⟨_, rfl⟩) hrun
  obtain ⟨-, -, -, -, houtcomes⟩ := stream_lossless hs
  have hmem : (true, .ok (.completed ⟨"ab", .stop, none⟩)) ∈ s.collected := by simp [hcollected]
  exact ⟨s, hrun, hcollected, (houtcomes _ hmem).1⟩

end Exchange
end MehoyRuntime.Stream
