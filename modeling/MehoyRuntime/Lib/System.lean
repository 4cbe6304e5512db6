import Mathlib.Data.List.Basic

/-!
# Labelled transition systems with executable steps

A system has a set of initial states and a step function: `step s a` is `none`
where the label `a` is not enabled in `s`. The labels carry every choice that is
not the program's own, so one step has one result and a concrete run can be
evaluated. `ReachableWhile ok` collects the states of the runs every step of which
meets `ok`; `Reachable` puts no condition on the steps.
-/

namespace TransitionSystem
universe u v w

structure System (σ : Type u) (α : Type v) where
  init : σ → Prop
  step : σ → α → Option σ

variable {σ : Type u} {α : Type v}

/-- States of the runs every step of which meets `ok` in the state it is taken from. -/
inductive ReachableWhile (sys : System σ α) (ok : σ → α → Prop) : σ → Prop
  | init {s} : sys.init s → ReachableWhile sys ok s
  | step {s s' a} : ReachableWhile sys ok s → ok s a → sys.step s a = some s' →
      ReachableWhile sys ok s'

abbrev Reachable (sys : System σ α) : σ → Prop := ReachableWhile sys fun _ _ => True

inductive Steps (sys : System σ α) (s : σ) : σ → Prop
  | refl : Steps sys s s
  | tail {t u a} : Steps sys s t → sys.step t a = some u → Steps sys s u

variable {sys : System σ α} {ok ok' : σ → α → Prop}

theorem ReachableWhile.mono (h : ∀ s a, ok s a → ok' s a) {s : σ}
    (hs : ReachableWhile sys ok s) : ReachableWhile sys ok' s := by
  induction hs with
  | init hi => exact .init hi
  | step _ hok hst ih => exact .step ih (h _ _ hok) hst

theorem ReachableWhile.reachable {s : σ} (hs : ReachableWhile sys ok s) : Reachable sys s :=
  hs.mono fun _ _ _ => trivial

theorem Reachable.next {s s' : σ} (a : α) (hs : Reachable sys s)
    (hst : sys.step s a = some s') : Reachable sys s' :=
  .step hs trivial hst

/-- The induction rule of invariants. A step may use that its source is itself
reachable, so an invariant can rest on one proved before it. -/
theorem ReachableWhile.invariant {I : σ → Prop} (hinit : ∀ s, sys.init s → I s)
    (hstep : ∀ s s' a, ReachableWhile sys ok s → I s → ok s a → sys.step s a = some s' → I s')
    {s : σ} (hs : ReachableWhile sys ok s) : I s := by
  induction hs with
  | init hi => exact hinit _ hi
  | step hr hok hst ih => exact hstep _ _ _ hr ih hok hst

/-! ### Runs between two states -/

theorem Steps.single {s t : σ} (a : α) (h : sys.step s a = some t) : Steps sys s t :=
  .tail .refl h

theorem Steps.trans {s t u : σ} (h : Steps sys s t) (h' : Steps sys t u) : Steps sys s u := by
  induction h' with
  | refl => exact h
  | tail _ hst ih => exact .tail ih hst

theorem Steps.reachable {s t : σ} (hs : Reachable sys s) (h : Steps sys s t) :
    Reachable sys t := by
  induction h with
  | refl => exact hs
  | tail _ hst ih => exact ih.next _ hst

def System.run (sys : System σ α) : σ → List α → Option σ
  | s, [] => some s
  | s, a :: as => (sys.step s a).bind fun s' => sys.run s' as

theorem run_append (s : σ) (as bs : List α) :
    sys.run s (as ++ bs) = (sys.run s as).bind fun t => sys.run t bs := by
  induction as generalizing s with
  | nil => rfl
  | cons a as ih =>
    rw [List.cons_append, System.run, System.run, Option.bind_assoc]
    simp only [ih]

theorem steps_of_run {as : List α} {s t : σ} (h : sys.run s as = some t) : Steps sys s t := by
  induction as generalizing s with
  | nil =>
    simp only [System.run, Option.some.injEq] at h
    exact h ▸ .refl
  | cons a as ih =>
    simp only [System.run, Option.bind_eq_some_iff] at h
    obtain ⟨s', hst, hrun⟩ := h
    exact (Steps.single a hst).trans (ih hrun)

theorem reachable_of_run {as : List α} {s t : σ} (hs : Reachable sys s)
    (h : sys.run s as = some t) : Reachable sys t :=
  (steps_of_run h).reachable hs

def System.runWhile (sys : System σ α) (ok : σ → α → Bool) : σ → List α → Option σ
  | s, [] => some s
  | s, a :: as => if ok s a then (sys.step s a).bind fun s' => sys.runWhile ok s' as else none

theorem reachableWhile_of_run {b : σ → α → Bool} (hb : ∀ s a, b s a = true → ok s a)
    {as : List α} {s t : σ} (hs : ReachableWhile sys ok s)
    (h : sys.runWhile b s as = some t) : ReachableWhile sys ok t := by
  induction as generalizing s with
  | nil =>
    simp only [System.runWhile, Option.some.injEq] at h
    exact h ▸ hs
  | cons a as ih =>
    simp only [System.runWhile] at h
    split at h
    · rename_i hok
      obtain ⟨s', hst, hrun⟩ := Option.bind_eq_some_iff.mp h
      exact ih (.step hs (hb s a hok) hst) hrun
    · cases h

/-! ### What a run goes through -/

/-- How often a run goes from states outside `P` to states in it. -/
def System.entries (sys : System σ α) (P : σ → Bool) : σ → List α → ℕ
  | _, [] => 0
  | s, a :: as =>
    match sys.step s a with
    | none => 0
    | some s' => (if !P s && P s' then 1 else 0) + sys.entries P s' as

def System.firstSome {β : Type w} (sys : System σ α) (f : σ → Option β) : σ → List α → Option β
  | s, [] => f s
  | s, a :: as =>
    match f s, sys.step s a with
    | some b, _ => some b
    | none, some s' => sys.firstSome f s' as
    | none, none => none

theorem run_preserves {I : σ → Prop} (hI : ∀ s s' a, sys.step s a = some s' → I s → I s')
    {as : List α} {s t : σ} (h : sys.run s as = some t) (hs : I s) : I t := by
  induction as generalizing s with
  | nil =>
    simp only [System.run, Option.some.injEq] at h
    exact h ▸ hs
  | cons a as ih =>
    simp only [System.run, Option.bind_eq_some_iff] at h
    obtain ⟨s', hst, hrun⟩ := h
    exact ih hrun (hI s s' a hst hs)

/-- A run enters a set that no step leaves once, if it ends there, and never otherwise. -/
theorem entries_of_persistent {P : σ → Bool}
    (hP : ∀ s s' a, sys.step s a = some s' → P s = true → P s' = true)
    {as : List α} {s t : σ} (h : sys.run s as = some t) :
    sys.entries P s as + (if P s then 1 else 0) = if P t then 1 else 0 := by
  induction as generalizing s with
  | nil =>
    simp only [System.run, Option.some.injEq] at h
    subst h
    simp [System.entries]
  | cons a as ih =>
    simp only [System.run, Option.bind_eq_some_iff] at h
    obtain ⟨s', hst, hrun⟩ := h
    have htail := ih hrun
    simp only [System.entries, hst]
    cases hs : P s with
    | true =>
      have hs' := hP s s' a hst hs
      simp only [hs', if_true] at htail
      simpa using htail
    | false =>
      rw [← htail]
      cases P s' <;> simp [Nat.add_comm]

/-- A value that no step changes or takes away is the first one all along. -/
theorem firstSome_of_persistent {β : Type w} {f : σ → Option β}
    (hf : ∀ s s' a b, sys.step s a = some s' → f s = some b → f s' = some b)
    {as : List α} {s t : σ} (h : sys.run s as = some t) : sys.firstSome f s as = f t := by
  induction as generalizing s with
  | nil =>
    simp only [System.run, Option.some.injEq] at h
    subst h
    rfl
  | cons a as ih =>
    have hrun := h
    simp only [System.run, Option.bind_eq_some_iff] at hrun
    obtain ⟨s', hst, hrun⟩ := hrun
    cases hs : f s with
    | none => simp only [System.firstSome, hs, hst, ih hrun]
    | some b =>
      have hlast : f t = some b :=
        run_preserves (fun u u' c => hf u u' c b) hrun (hf s s' a b hst hs)
      simp only [System.firstSome, hs, hlast]

/-! ### Histories -/

section History
variable {γ : Type w} {start : γ} {note : γ → σ → α → γ}

/-- The system beside a history of its run, which no step reads. -/
def System.recording (sys : System σ α) (start : γ) (note : γ → σ → α → γ) : System (σ × γ) α where
  init s := sys.init s.1 ∧ s.2 = start
  step s a := (sys.step s.1 a).map fun s' => (s', note s.2 s.1 a)

theorem recording_step {s s' : σ × γ} {a : α} (h : (sys.recording start note).step s a = some s') :
    sys.step s.1 a = some s'.1 ∧ s'.2 = note s.2 s.1 a := by
  obtain ⟨t, hst, rfl⟩ := Option.map_eq_some_iff.mp h
  exact ⟨hst, rfl⟩

/-- Recording a run does not change it. -/
theorem Reachable.unrecorded {s : σ × γ} (h : Reachable (sys.recording start note) s) :
    Reachable sys s.1 := by
  induction h with
  | init hi => exact .init hi.1
  | step _ _ hst ih => exact ih.next _ (recording_step hst).1

theorem ReachableWhile.recorded {s : σ} (h : ReachableWhile sys ok s) :
    ∃ history, ReachableWhile (sys.recording start note) (fun s a => ok s.1 a) (s, history) := by
  induction h with
  | init hi => exact ⟨start, .init ⟨hi, rfl⟩⟩
  | @step s s' a _ hok hst ih =>
    obtain ⟨history, hrecorded⟩ := ih
    have hnext : (sys.recording start note).step (s, history) a = some (s', note history s a) := by
      simp only [System.recording, hst, Option.map_some]
    exact ⟨_, hrecorded.step hok hnext⟩

end History

/-! ### Systems whose runs end -/

section Measure
variable {μ : σ → ℕ}

theorem run_length_le (hμ : ∀ s s' a, sys.step s a = some s' → μ s' < μ s) {as : List α} {s t : σ}
    (h : sys.run s as = some t) : as.length + μ t ≤ μ s := by
  induction as generalizing s with
  | nil =>
    simp only [System.run, Option.some.injEq] at h
    simp [h]
  | cons a as ih =>
    simp only [System.run, Option.bind_eq_some_iff] at h
    obtain ⟨s', hst, hrun⟩ := h
    have hdown := hμ s s' a hst
    have hrest := ih hrun
    simp only [List.length_cons]
    omega

/-- A run that goes on for as long as it can comes to a state without a next step. -/
theorem exists_stuck (hμ : ∀ s s' a, sys.step s a = some s' → μ s' < μ s) (s : σ) :
    ∃ t, Steps sys s t ∧ ∀ a, sys.step t a = none := by
  by_cases hstuck : ∀ a, sys.step s a = none
  · exact ⟨s, .refl, hstuck⟩
  · obtain ⟨a, ha⟩ := not_forall.mp hstuck
    obtain ⟨s', hst⟩ := Option.ne_none_iff_exists'.mp ha
    have hdown := hμ s s' a hst
    obtain ⟨t, hsteps, ht⟩ := exists_stuck hμ s'
    exact ⟨t, (Steps.single a hst).trans hsteps, ht⟩
termination_by μ s

end Measure

/-! ### Systems built from components -/

section Components
variable {σ' : Type u} {α' : Type v} {ι : Type w}
variable {big : System σ' α'} {okBig : σ' → α' → Prop}

/-- `part s i x` says that `x` is the component of `s` at the place `i`. Where every
step of the whole leaves a component alone, moves it by a step of its own, or creates
it in an initial state, each component of a reachable whole is reachable by itself. -/
theorem ReachableWhile.component (part : σ' → ι → σ → Prop)
    (hinit : ∀ s i x, big.init s → part s i x → sys.init x)
    (hstep : ∀ s s' a i x', ReachableWhile big okBig s → okBig s a → big.step s a = some s' →
      part s' i x' →
      (∃ x, part s i x ∧ (x = x' ∨ ∃ b, ok x b ∧ sys.step x b = some x')) ∨ sys.init x')
    {s : σ'} (hs : ReachableWhile big okBig s) {i : ι} {x : σ} (hx : part s i x) :
    ReachableWhile sys ok x := by
  -- Induction on the run of the whole; the place of the component varies with it.
  induction hs generalizing i x with
  | init hi => exact .init (hinit _ _ _ hi hx)
  | step hr hok hst ih =>
    rcases hstep _ _ _ _ _ hr hok hst hx with ⟨y, hy, hxy⟩ | hnew
    · rcases hxy with rfl | ⟨b, hb, hyx⟩
      · exact ih hy
      · exact .step (ih hy) hb hyx
    · exact .init hnew

end Components
end TransitionSystem
