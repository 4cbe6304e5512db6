import Mathlib.Logic.Basic

/-!
# Computations whose state outlives an error

Partial correctness for programs with a state and errors, with one condition on the
state after a result and another after an error. The rules follow the program text.
-/

namespace StateError
universe u

variable {ε σ α β : Type u}

/-- From a state meeting `P`, a result leaves one meeting `Q`, and an error one meeting
`E`. -/
def Ensures (P : σ → Prop) (m : EStateM ε σ α) (Q : α → σ → Prop) (E : ε → σ → Prop) : Prop :=
  ∀ s, P s →
    match m s with
    | .ok a s' => Q a s'
    | .error e s' => E e s'

variable {P P' : σ → Prop} {m : EStateM ε σ α} {Q Q' : α → σ → Prop} {E E' : ε → σ → Prop}

theorem Ensures.bind {f : α → EStateM ε σ β} {R : β → σ → Prop} (hm : Ensures P m Q E)
    (hf : ∀ a, Ensures (Q a) (f a) R E) : Ensures P (m >>= f) R E := by
  intro s hs
  have hfirst := hm s hs
  change match EStateM.bind m f s with
    | .ok b s' => R b s'
    | .error e s' => E e s'
  unfold EStateM.bind
  cases hms : m s with
  | ok a s' =>
    rw [hms] at hfirst
    exact hf a s' hfirst
  | error e s' =>
    rw [hms] at hfirst
    exact hfirst

theorem Ensures.pure {a : α} (h : ∀ s, P s → Q a s) :
    Ensures P (Pure.pure a : EStateM ε σ α) Q E := fun s hs => h s hs

theorem Ensures.throw {e : ε} (h : ∀ s, P s → E e s) :
    Ensures P (MonadExcept.throw e : EStateM ε σ α) Q E := fun s hs => h s hs

theorem Ensures.ite {c : Prop} [Decidable c] {m' : EStateM ε σ α}
    (ht : c → Ensures P m Q E) (hf : ¬ c → Ensures P m' Q E) :
    Ensures P (if c then m else m') Q E := by
  split
  · exact ht ‹_›
  · exact hf ‹_›

theorem Ensures.weaken (h : Ensures P m Q E) (hP : ∀ s, P' s → P s)
    (hQ : ∀ a s, Q a s → Q' a s) (hE : ∀ e s, E e s → E' e s) : Ensures P' m Q' E' := by
  intro s hs
  have hrun := h s (hP s hs)
  cases hms : m s with
  | ok a s' =>
    rw [hms] at hrun
    exact hQ a s' hrun
  | error e s' =>
    rw [hms] at hrun
    exact hE e s' hrun

end StateError
