import MehoyRuntime.Core.Inference

/-!
# Generation streams

The two halves of one stream over its bounded channel, and the handle they share. A
`send` that has to wait is one that is not enabled yet; reading nothing while the
producer lives likewise. `delivered` records what `next` has handed to the consumer.
-/

namespace MehoyRuntime.Stream
open MehoyRuntime.Core

def generationStreamBuffer : ℕ := 32

structure GenerationStream where
  deltas : ℕ
  completed : Bool
  cancelled : Option CancellationCause
  finished : Bool
  deriving DecidableEq, Repr

structure Channel where
  handle : RequestHandle
  queue : List StreamItem
  senderAlive : Bool
  receiverAlive : Bool
  sinkFinished : Bool
  stream : GenerationStream
  delivered : List StreamItem
  deriving DecidableEq, Repr

/-- Creates the channel with `Started` already in its buffer. -/
def generationStream (handle : RequestHandle) : Channel where
  handle := handle
  queue := [.ok (.started handle.id)]
  senderAlive := true
  receiverAlive := true
  sinkFinished := false
  stream := ⟨0, false, none, false⟩
  delivered := []

def isTerminalItem : StreamItem → Bool
  | .ok (.completed _ _) | .ok (.cancelled _ _) | .error _ => true
  | .ok (.started _) | .ok (.textDelta _ _) => false

def deltaText : StreamItem → Option String
  | .ok (.textDelta _ text) => some text
  | _ => none

def GenerationStream.observe (stream : GenerationStream) : StreamItem → GenerationStream
  | .ok (.textDelta _ _) => { stream with deltas := stream.deltas + 1 }
  | .ok (.completed _ _) => { stream with completed := true, finished := true }
  | .ok (.cancelled _ cause) => { stream with cancelled := some cause, finished := true }
  | .ok (.started _) => stream
  | .error _ => { stream with finished := true }

def GenerationStream.demonstratedGeneration (stream : GenerationStream) : Bool :=
  stream.completed && 0 < stream.deltas

namespace Channel

def full (c : Channel) : Bool := generationStreamBuffer ≤ c.queue.length

/-- A pending `send` of the item: nothing while the buffer is full, and whether the
consumer is still there otherwise. -/
def send (c : Channel) (item : StreamItem) : Option (Bool × Channel) :=
  if !c.receiverAlive then some (false, c)
  else if c.full then none
  else some (true, { c with queue := c.queue ++ [item] })

/-- Where `delta` is after its first checks: back with its answer, or sending. -/
inductive DeltaStart
  | returned (alive : Bool)
  | sending
  deriving DecidableEq, Repr

def delta (c : Channel) (text : String) : DeltaStart :=
  if c.sinkFinished then .returned false
  else if text.isEmpty then .returned true
  else .sending

theorem delta_sending {c : Channel} {text : String} (h : c.delta text = .sending) : text ≠ "" := by
  rintro rfl
  unfold delta at h
  split at h <;> cases h

/-- Drops the sink. One that was never finished records a failure. -/
def dropSink (c : Channel) : Channel :=
  { c with
    handle := if c.sinkFinished then c.handle else (c.handle.finish .failed).2
    senderAlive := false }

def producerGone : StreamItem :=
  .error (.unexpectedEnd "the backend stream stopped without reporting an outcome")

def next (c : Channel) : Option (Option StreamItem × Channel) :=
  if c.stream.finished then some (none, c)
  else
    match c.queue with
    | item :: rest =>
      some (some item,
        { c with
          queue := rest
          stream := c.stream.observe item
          delivered := c.delivered ++ [item] })
    | [] =>
      if c.senderAlive then none
      else
        some (some producerGone,
          { c with
            handle := (c.handle.finish .failed).2
            stream := { c.stream with finished := true }
            delivered := c.delivered ++ [producerGone] })

/-- Dropping the receiver discards what it never read. -/
def dropStream (c : Channel) : Channel := { c with queue := [], receiverAlive := false }

def items (c : Channel) : List StreamItem := c.delivered ++ c.queue

theorem send_eq_none {c : Channel} {item : StreamItem} :
    c.send item = none ↔ c.receiverAlive = true ∧ c.full = true := by
  unfold send
  cases c.receiverAlive <;> cases c.full <;> simp

theorem send_cases {c c' : Channel} {item : StreamItem} {alive : Bool}
    (h : c.send item = some (alive, c')) :
    (c.receiverAlive = false ∧ alive = false ∧ c' = c) ∨
    (c.receiverAlive = true ∧ c.queue.length < generationStreamBuffer ∧ alive = true ∧
      c' = { c with queue := c.queue ++ [item] }) := by
  unfold send full at h
  cases hr : c.receiverAlive with
  | false =>
    simp [hr] at h
    exact .inl ⟨rfl, h.1, h.2.symm⟩
  | true =>
    simp [hr] at h
    exact .inr ⟨rfl, h.1, h.2.1, h.2.2.symm⟩

theorem next_cases {c c' : Channel} {out : Option StreamItem} (h : c.next = some (out, c')) :
    (c.stream.finished = true ∧ out = none ∧ c' = c) ∨
    (c.stream.finished = false ∧ ∃ item rest, c.queue = item :: rest ∧ out = some item ∧
      c' = { c with
        queue := rest
        stream := c.stream.observe item
        delivered := c.delivered ++ [item] }) ∨
    (c.stream.finished = false ∧ c.queue = [] ∧ c.senderAlive = false ∧
      out = some producerGone ∧
      c' = { c with
        handle := (c.handle.finish .failed).2
        stream := { c.stream with finished := true }
        delivered := c.delivered ++ [producerGone] }) := by
  unfold next at h
  cases hf : c.stream.finished with
  | true =>
    simp [hf] at h
    exact .inl ⟨rfl, h.1.symm, h.2.symm⟩
  | false =>
    cases hq : c.queue with
    | cons item rest =>
      simp [hf, hq] at h
      exact .inr (.inl ⟨rfl, item, rest, rfl, h.1.symm, h.2.symm⟩)
    | nil =>
      simp [hf, hq] at h
      exact .inr (.inr ⟨rfl, rfl, h.1, h.2.1.symm, h.2.2.symm⟩)

theorem next_cons {c : Channel} {item : StreamItem} {rest : List StreamItem}
    (hf : c.stream.finished = false) (hq : c.queue = item :: rest) :
    c.next = some (some item,
      { c with
        queue := rest
        stream := c.stream.observe item
        delivered := c.delivered ++ [item] }) := by
  simp only [next, hf, hq, Bool.false_eq_true, if_false]

theorem observe_finished (stream : GenerationStream) (item : StreamItem) :
    (stream.observe item).finished = (stream.finished || isTerminalItem item) := by
  rcases item with error | event
  · simp [GenerationStream.observe, isTerminalItem]
  · cases event <;> simp [GenerationStream.observe, isTerminalItem]

theorem dropSink_later (c : Channel) : c.handle.Later c.dropSink.handle := by
  unfold dropSink
  cases c.sinkFinished
  · exact RequestHandle.later_finish c.handle .failed
  · exact .refl c.handle

end Channel
end MehoyRuntime.Stream
