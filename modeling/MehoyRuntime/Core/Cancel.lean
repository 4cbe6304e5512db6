import Mathlib.Logic.Basic
import Mathlib.Order.Basic

/-!
# Requests and stopping them

The shared part of one request: its identifier, the state every clone of its handle
sees, and the token that carries why it was told to stop. `Later h h'` is what any
sequence of operations on a handle can do to it: the first terminal state and the
first cause stay.
-/

namespace MehoyRuntime.Core

structure RequestId where
  raw : UInt64
  deriving DecidableEq, Repr

structure IdAllocator where
  next : UInt64
  deriving DecidableEq, Repr

def IdAllocator.new : IdAllocator := ⟨1⟩

/-- `fetch_add` on an atomic word: the old value is handed out and the sum wraps. -/
def IdAllocator.nextRaw (ids : IdAllocator) : UInt64 × IdAllocator :=
  (ids.next, ⟨ids.next + 1⟩)

def IdAllocator.request (ids : IdAllocator) : RequestId × IdAllocator :=
  (⟨ids.nextRaw.1⟩, ids.nextRaw.2)

inductive CancellationCause
  | user
  | streamIdleTimeout
  | consumerGone
  | instanceUnloading
  deriving DecidableEq, Repr

inductive RequestState
  | starting
  | running
  | cancelling
  | completed
  | cancelled
  | failed
  deriving DecidableEq, Repr

def RequestState.isTerminal : RequestState → Bool
  | .completed | .cancelled | .failed => true
  | .starting | .running | .cancelling => false

/-- The value of the token's watch channel. -/
structure CancellationToken where
  cause : Option CancellationCause
  deriving DecidableEq, Repr

def CancellationToken.new : CancellationToken := ⟨none⟩

/-- The first cause wins; the Boolean says whether this call was the one. -/
def CancellationToken.cancel (token : CancellationToken) (cause : CancellationCause) :
    Bool × CancellationToken :=
  match token.cause with
  | none => (true, ⟨some cause⟩)
  | some _ => (false, token)

structure RequestHandle where
  id : RequestId
  state : RequestState
  cancel : CancellationToken
  deriving DecidableEq, Repr

namespace RequestHandle

def new (id : RequestId) : RequestHandle := ⟨id, .starting, .new⟩

def isTerminal (h : RequestHandle) : Bool := h.state.isTerminal

def cancellationCause (h : RequestHandle) : Option CancellationCause := h.cancel.cause

def markRunning (h : RequestHandle) : RequestHandle :=
  if h.state = .starting then { h with state := .running } else h

def requestCancellation (h : RequestHandle) (cause : CancellationCause) :
    Bool × RequestHandle :=
  if h.isTerminal then (false, h)
  else
    match h.cancel.cancel cause with
    | (true, token) => (true, { h with state := .cancelling, cancel := token })
    | (false, token) => (false, { h with cancel := token })

def finish (h : RequestHandle) (outcome : RequestState) : Bool × RequestHandle :=
  if h.isTerminal then (false, h) else (true, { h with state := outcome })

/-- The token alone is told, as the idle budgets of the execution task do. -/
def cancelToken (h : RequestHandle) (cause : CancellationCause) : RequestHandle :=
  { h with cancel := (h.cancel.cancel cause).2 }

/-- The request has ended, or the reason it was told to stop is on its token. -/
def EndedOrTold (h : RequestHandle) : Prop :=
  h.isTerminal = true ∨ ∃ cause, h.cancellationCause = some cause

@[simp] theorem new_id (id : RequestId) : (new id).id = id := rfl

@[simp] theorem isTerminal_new (id : RequestId) : (new id).isTerminal = false := rfl

@[simp] theorem markRunning_id (h : RequestHandle) : h.markRunning.id = h.id := by
  unfold markRunning
  split <;> rfl

@[simp] theorem markRunning_cause (h : RequestHandle) :
    h.markRunning.cancellationCause = h.cancellationCause := by
  unfold markRunning
  split <;> rfl

@[simp] theorem markRunning_isTerminal (h : RequestHandle) :
    h.markRunning.isTerminal = h.isTerminal := by
  unfold markRunning
  split
  · rename_i hs
    simp [isTerminal, hs, RequestState.isTerminal]
  · rfl

theorem requestCancellation_cases (h : RequestHandle) (cause : CancellationCause) :
    (h.isTerminal = true ∧ h.requestCancellation cause = (false, h)) ∨
    (h.isTerminal = false ∧ (∃ c, h.cancellationCause = some c) ∧
      h.requestCancellation cause = (false, h)) ∨
    (h.isTerminal = false ∧ h.cancellationCause = none ∧
      h.requestCancellation cause =
        (true, { h with state := .cancelling, cancel := ⟨some cause⟩ })) := by
  unfold requestCancellation CancellationToken.cancel cancellationCause
  cases ht : h.isTerminal with
  | true => simp
  | false =>
    cases hc : h.cancel.cause with
    | none => simp
    | some c => simp

@[simp] theorem requestCancellation_isTerminal (h : RequestHandle) (cause : CancellationCause) :
    (h.requestCancellation cause).2.isTerminal = h.isTerminal := by
  rcases requestCancellation_cases h cause with ⟨-, he⟩ | ⟨-, -, he⟩ | ⟨ht, -, he⟩
  · rw [he]
  · rw [he]
  · rw [he, ht]
    rfl

theorem requestCancellation_endedOrTold (h : RequestHandle) (cause : CancellationCause) :
    (h.requestCancellation cause).2.EndedOrTold := by
  rcases requestCancellation_cases h cause with ⟨ht, he⟩ | ⟨-, hc, he⟩ | ⟨-, -, he⟩
  · rw [he]
    exact .inl ht
  · rw [he]
    exact .inr hc
  · rw [he]
    exact .inr ⟨cause, rfl⟩

@[simp] theorem finish_id (h : RequestHandle) (outcome : RequestState) :
    (h.finish outcome).2.id = h.id := by
  unfold finish
  split <;> rfl

@[simp] theorem finish_cause (h : RequestHandle) (outcome : RequestState) :
    (h.finish outcome).2.cancellationCause = h.cancellationCause := by
  unfold finish
  split <;> rfl

theorem finish_of_terminal {h : RequestHandle} (ht : h.isTerminal = true)
    (outcome : RequestState) : (h.finish outcome).2 = h := by
  simp [finish, ht]

theorem finish_of_not_terminal {h : RequestHandle} (ht : h.isTerminal = false)
    (outcome : RequestState) : (h.finish outcome).2 = { h with state := outcome } := by
  simp [finish, ht]

theorem finish_isTerminal {outcome : RequestState} (ho : outcome.isTerminal = true)
    (h : RequestHandle) : (h.finish outcome).2.isTerminal = true := by
  cases ht : h.isTerminal with
  | true => rw [finish_of_terminal ht, ht]
  | false =>
    rw [finish_of_not_terminal ht]
    exact ho

theorem cancelToken_cause (h : RequestHandle) (cause : CancellationCause) :
    (h.cancelToken cause).cancellationCause = some (h.cancellationCause.getD cause) := by
  unfold cancelToken CancellationToken.cancel cancellationCause
  cases hc : h.cancel.cause <;> simp [hc]

/-! ### What later operations leave alone -/

/-- `h'` is `h` after some operations on it. -/
structure Later (h h' : RequestHandle) : Prop where
  id : h'.id = h.id
  terminal : h.isTerminal = true → h'.state = h.state
  cause : ∀ c, h.cancellationCause = some c → h'.cancellationCause = some c

theorem Later.refl (h : RequestHandle) : Later h h := ⟨rfl, fun _ => rfl, fun _ hc => hc⟩

theorem Later.isTerminal {h h' : RequestHandle} (hl : Later h h')
    (ht : h.isTerminal = true) : h'.isTerminal = true := by
  unfold RequestHandle.isTerminal at ht ⊢
  rw [hl.terminal ht, ht]

theorem Later.trans {h h' h'' : RequestHandle} (hl : Later h h') (hl' : Later h' h'') :
    Later h h'' where
  id := hl'.id.trans hl.id
  terminal ht := (hl'.terminal (hl.isTerminal ht)).trans (hl.terminal ht)
  cause c hc := hl'.cause c (hl.cause c hc)

theorem Later.endedOrTold {h h' : RequestHandle} (hl : Later h h') (he : h.EndedOrTold) :
    h'.EndedOrTold := by
  rcases he with ht | ⟨c, hc⟩
  · exact .inl (hl.isTerminal ht)
  · exact .inr ⟨c, hl.cause c hc⟩

theorem later_markRunning (h : RequestHandle) : Later h h.markRunning where
  id := markRunning_id h
  terminal ht := by
    have hs : h.state ≠ .starting := by
      intro hs
      simp [RequestHandle.isTerminal, hs, RequestState.isTerminal] at ht
    simp [markRunning, hs]
  cause c hc := by rw [markRunning_cause, hc]

theorem later_requestCancellation (h : RequestHandle) (cause : CancellationCause) :
    Later h (h.requestCancellation cause).2 := by
  rcases requestCancellation_cases h cause with ⟨-, he⟩ | ⟨-, -, he⟩ | ⟨ht, hn, he⟩
  · rw [he]
    exact .refl h
  · rw [he]
    exact .refl h
  · rw [he]
    refine ⟨rfl, fun ht' => ?_, fun c hc => ?_⟩
    · rw [ht] at ht'
      cases ht'
    · rw [hn] at hc
      cases hc

theorem later_finish (h : RequestHandle) (outcome : RequestState) :
    Later h (h.finish outcome).2 where
  id := finish_id h outcome
  terminal ht := by rw [finish_of_terminal ht]
  cause c hc := by rw [finish_cause, hc]

theorem later_cancelToken (h : RequestHandle) (cause : CancellationCause) :
    Later h (h.cancelToken cause) where
  id := rfl
  terminal _ := rfl
  cause c hc := by rw [cancelToken_cause, hc, Option.getD_some]

end RequestHandle
end MehoyRuntime.Core
