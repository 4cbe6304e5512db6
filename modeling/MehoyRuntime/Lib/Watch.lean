import Mathlib.Data.Nat.Notation

/-!
# Watch channels

One value that its senders replace and its receivers look at. The channel counts the
values sent; a receiver keeps the count at which it last looked. Waiting for a change
ends at once where the counts differ, and otherwise leaves the receiver waiting until
the next value notifies it. `Attends` is what a receiver never loses: it is left waiting
only while nothing newer than what it looked at has been sent.
-/

namespace Watch
universe u
variable {α : Type u}

structure Channel (α : Type u) where
  value : α
  version : ℕ
  deriving DecidableEq, Repr

structure Receiver where
  seen : ℕ
  waiting : Bool
  deriving DecidableEq, Repr

/-- What a send does to each receiver. -/
def Receiver.notify (r : Receiver) (modified : Bool) : Receiver :=
  if modified then { r with waiting := false } else r

@[simp] theorem Receiver.notify_false (r : Receiver) : r.notify false = r := rfl

namespace Channel
variable {ch : Channel α} {r : Receiver} {P : α → Prop} {modify : α → Option α}

def new (value : α) : Channel α := ⟨value, 0⟩

/-- `modify` answers the value to send, or nothing where the old one is to stay. -/
def sendIfModified (ch : Channel α) (modify : α → Option α) : Bool × Channel α :=
  match modify ch.value with
  | some value => (true, ⟨value, ch.version + 1⟩)
  | none => (false, ch)

def subscribe (ch : Channel α) : Receiver := ⟨ch.version, false⟩

def borrowAndUpdate (ch : Channel α) (r : Receiver) : α × Receiver :=
  (ch.value, { r with seen := ch.version })

/-- One poll of waiting for a change: whether it is over, and the receiver after it. -/
def pollChanged (ch : Channel α) (r : Receiver) : Bool × Receiver :=
  if r.seen = ch.version then (false, { r with waiting := true }) else (true, ⟨ch.version, false⟩)

def Attends (ch : Channel α) (r : Receiver) : Prop :=
  r.seen ≤ ch.version ∧ (r.waiting = true → r.seen = ch.version)

/-- As long as nothing newer was sent than what the receiver looked at, `P` holds of it. -/
def Knows (P : α → Prop) (ch : Channel α) (r : Receiver) : Prop :=
  r.seen = ch.version → P ch.value

theorem sendIfModified_cases (ch : Channel α) (modify : α → Option α) :
    (∃ value, modify ch.value = some value ∧
      ch.sendIfModified modify = (true, ⟨value, ch.version + 1⟩)) ∨
    (modify ch.value = none ∧ ch.sendIfModified modify = (false, ch)) := by
  unfold sendIfModified
  cases h : modify ch.value with
  | some value => exact .inl ⟨value, rfl, rfl⟩
  | none => exact .inr ⟨rfl, rfl⟩

theorem attends_subscribe (ch : Channel α) : ch.Attends ch.subscribe := by
  simp [Attends, subscribe]

theorem attends_borrowAndUpdate (ch : Channel α) (r : Receiver) :
    ch.Attends (ch.borrowAndUpdate r).2 := by
  simp [Attends, borrowAndUpdate]

theorem knows_borrowAndUpdate (h : P (ch.borrowAndUpdate r).1) :
    ch.Knows P (ch.borrowAndUpdate r).2 :=
  fun _ => h

theorem pollChanged_cases (ch : Channel α) (r : Receiver) :
    (r.seen = ch.version ∧ ch.pollChanged r = (false, { r with waiting := true })) ∨
    (r.seen ≠ ch.version ∧ ch.pollChanged r = (true, ⟨ch.version, false⟩)) := by
  unfold pollChanged
  split
  · exact .inl ⟨‹_›, rfl⟩
  · exact .inr ⟨‹_›, rfl⟩

theorem attends_pollChanged (ch : Channel α) (r : Receiver) :
    ch.Attends (ch.pollChanged r).2 := by
  rcases pollChanged_cases ch r with ⟨hseen, he⟩ | ⟨-, he⟩
  · simp [he, Attends, hseen]
  · simp [he, Attends]

theorem Attends.sendIfModified (h : ch.Attends r) (modify : α → Option α) :
    (ch.sendIfModified modify).2.Attends (r.notify (ch.sendIfModified modify).1) := by
  rcases sendIfModified_cases ch modify with ⟨value, -, he⟩ | ⟨-, he⟩
  · have hseen := h.1
    simp only [he, Receiver.notify, if_true, Attends]
    exact ⟨by omega, fun hwait => absurd hwait (by simp)⟩
  · simpa [he] using h

/-- A newer value makes the receiver know less, not something else. -/
theorem Knows.sendIfModified (h : ch.Knows P r) (hr : ch.Attends r) (modify : α → Option α) :
    (ch.sendIfModified modify).2.Knows P (r.notify (ch.sendIfModified modify).1) := by
  rcases sendIfModified_cases ch modify with ⟨value, -, he⟩ | ⟨-, he⟩
  · have hseen := hr.1
    intro hnow
    simp only [he, Receiver.notify, if_true] at hnow
    omega
  · simpa [he] using h

/-- A receiver that knows `P` of what it looked at is not waiting where `P` fails. -/
theorem Attends.awake (hr : ch.Attends r) (hk : ch.Knows P r) (hP : ¬ P ch.value) :
    r.waiting = false := by
  cases hwait : r.waiting with
  | false => rfl
  | true => exact absurd (hk (hr.2 hwait)) hP

end Channel
end Watch
