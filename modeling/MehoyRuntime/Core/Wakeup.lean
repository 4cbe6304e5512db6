import MehoyRuntime.Core.Cancel
import MehoyRuntime.Lib.Slots
import MehoyRuntime.Lib.System
import MehoyRuntime.Lib.Watch

/-!
# Waiting to be told to stop

One cancellation token as every holder of a clone uses it (`CancellationToken::cancel`,
`cause` and `cancelled` of cancel.rs): any number of calls of `cancelled` wait on its
watch channel, each between the turns of its loop, while others cancel it or drop a
waiting call. The claims model the token as the value of the channel alone; `token` is
that view, and `cancel_token` says that cancelling acts on it as it does there. What the
channel adds is that a call which found no cause is notified of the one set afterwards.
-/

namespace MehoyRuntime.Core.Wakeup
open TransitionSystem Watch

/-- Where one call of `cancelled` is in its loop. -/
inductive Point
  | looking
  | watching
  | returned (cause : CancellationCause)
  | dropped
  deriving DecidableEq, Repr

structure Watcher where
  receiver : Receiver
  point : Point
  deriving DecidableEq, Repr

structure Inner where
  signal : Channel (Option CancellationCause)
  watchers : List Watcher
  deriving DecidableEq, Repr

inductive Action
  | cancel (cause : CancellationCause)
  | cancelled
  | resume (i : ℕ)
  | drop (i : ℕ)
  deriving DecidableEq, Repr

def Inner.new : Inner := ⟨.new none, []⟩

def claim (cause : CancellationCause) : Option CancellationCause →
    Option (Option CancellationCause)
  | none => some (some cause)
  | some _ => none

namespace Inner

def cause (s : Inner) : Option CancellationCause := s.signal.value

def token (s : Inner) : CancellationToken := ⟨s.cause⟩

def cancel (s : Inner) (cause : CancellationCause) : Bool × Inner :=
  match s.signal.sendIfModified (claim cause) with
  | (claimed, signal) =>
    (claimed, ⟨signal, s.watchers.map fun w => { w with receiver := w.receiver.notify claimed }⟩)

end Inner

def Watcher.resume (signal : Channel (Option CancellationCause)) (w : Watcher) : Option Watcher :=
  match w.point with
  | .looking =>
    match signal.borrowAndUpdate w.receiver with
    | (some cause, watcher) => some ⟨watcher, .returned cause⟩
    | (none, watcher) => some ⟨watcher, .watching⟩
  | .watching =>
    -- The sender lives as long as the call does, so `changed` never answers with an error.
    match signal.pollChanged w.receiver with
    | (true, watcher) => some ⟨watcher, .looking⟩
    | (false, watcher) => some ⟨watcher, .watching⟩
  | .returned _ | .dropped => none

def step (s : Inner) : Action → Option Inner
  | .cancel cause => some (s.cancel cause).2
  | .cancelled =>
    some { s with watchers := s.watchers ++ [⟨s.signal.subscribe, .looking⟩] }
  | .resume i => do
    let w ← s.watchers[i]?
    let w' ← w.resume s.signal
    return { s with watchers := s.watchers.set i w' }
  | .drop i => do
    let w ← s.watchers[i]?
    return { s with watchers := s.watchers.set i { w with point := .dropped } }

def system : System Inner Action where
  init s := s = .new
  step := step

/-- The calls of `cancel` so far, in their order, each with its answer. -/
abbrev Calls := List (CancellationCause × Bool)

def noteCall (calls : Calls) (s : Inner) : Action → Calls
  | .cancel cause => calls ++ [(cause, (s.cancel cause).1)]
  | _ => calls

def recorded : System (Inner × Calls) Action := system.recording [] noteCall

/-- How many turns of its own a call still takes once a cause is set. -/
def Point.owed : Point → ℕ
  | .looking => 1
  | .watching => 2
  | .returned _ | .dropped => 0

/-! ### Cancelling -/

theorem cancel_cases (s : Inner) (cause : CancellationCause) :
    (s.cause = none ∧ (s.cancel cause).1 = true ∧ (s.cancel cause).2.cause = some cause) ∨
    (∃ first, s.cause = some first ∧ s.cancel cause = (false, s)) := by
  unfold Inner.cancel Inner.cause
  cases hv : s.signal.value with
  | none =>
    have hsend : s.signal.sendIfModified (claim cause) =
        (true, ⟨some cause, s.signal.version + 1⟩) := by
      simp [Channel.sendIfModified, hv, claim]
    simp [hsend]
  | some first =>
    have hsend : s.signal.sendIfModified (claim cause) = (false, s.signal) := by
      simp [Channel.sendIfModified, hv, claim]
    simp [hsend]

/-- Cancelling acts on the view the other models have of the token. -/
theorem cancel_token (s : Inner) (cause : CancellationCause) :
    (s.token.cancel cause).1 = (s.cancel cause).1 ∧
      (s.token.cancel cause).2 = (s.cancel cause).2.token := by
  rcases cancel_cases s cause with ⟨hnone, hclaimed, hset⟩ | ⟨first, hsome, he⟩
  · simp [Inner.token, CancellationToken.cancel, hnone, hclaimed, hset]
  · simp [he, Inner.token, CancellationToken.cancel, hsome]

theorem step_cause {s s' : Inner} {a : Action} {cause : CancellationCause}
    (h : step s a = some s') (hc : s.cause = some cause) : s'.cause = some cause := by
  cases a with
  | cancel other =>
    obtain rfl : (s.cancel other).2 = s' := Option.some.inj h
    rcases cancel_cases s other with ⟨hnone, -⟩ | ⟨first, -, he⟩
    · rw [hnone] at hc
      cases hc
    · rw [he]
      exact hc
  | cancelled =>
    obtain rfl := Option.some.inj h
    exact hc
  | resume i =>
    simp only [step, Option.bind_eq_bind, Option.bind_eq_some_iff, Option.pure_def,
      Option.some.injEq] at h
    obtain ⟨w, -, w', -, rfl⟩ := h
    exact hc
  | drop i =>
    simp only [step, Option.bind_eq_bind, Option.bind_eq_some_iff, Option.pure_def,
      Option.some.injEq] at h
    obtain ⟨w, -, rfl⟩ := h
    exact hc

/-- The first call claimed the token and no later one did. -/
def FirstClaimed (cause : Option CancellationCause) (calls : Calls) : Prop :=
  match cause with
  | none => calls = []
  | some first => ∃ later : List CancellationCause, calls = (first, true) :: later.map (·, false)

theorem firstClaimed_step {s s' : Inner} {a : Action} {calls : Calls}
    (h : step s a = some s') (hf : FirstClaimed s.cause calls) :
    FirstClaimed s'.cause (noteCall calls s a) := by
  cases a with
  | cancel cause =>
    obtain rfl : (s.cancel cause).2 = s' := Option.some.inj h
    rcases cancel_cases s cause with ⟨hnone, hclaimed, hset⟩ | ⟨first, hsome, he⟩
    · have hcalls : calls = [] := by simpa [FirstClaimed, hnone] using hf
      simp [FirstClaimed, noteCall, hset, hcalls, hclaimed]
    · obtain ⟨later, hcalls⟩ : ∃ later : List CancellationCause,
          calls = (first, true) :: later.map (·, false) := by
        simpa [FirstClaimed, hsome] using hf
      simp only [FirstClaimed, noteCall, he, hsome]
      exact ⟨later ++ [cause], by simp [hcalls]⟩
  | cancelled =>
    obtain rfl := Option.some.inj h
    exact hf
  | resume i =>
    simp only [step, Option.bind_eq_bind, Option.bind_eq_some_iff, Option.pure_def,
      Option.some.injEq] at h
    obtain ⟨w, -, w', -, rfl⟩ := h
    exact hf
  | drop i =>
    simp only [step, Option.bind_eq_bind, Option.bind_eq_some_iff, Option.pure_def,
      Option.some.injEq] at h
    obtain ⟨w, -, rfl⟩ := h
    exact hf

/-! ### One waiting call across a step -/

theorem step_watcher {s s' : Inner} {a : Action} {i : ℕ} {w' : Watcher}
    (h : step s a = some s') (hw' : s'.watchers[i]? = some w') :
    (s'.signal = s.signal ∧ w' = ⟨s.signal.subscribe, .looking⟩ ∧ s.watchers[i]? = none) ∨
    ∃ w, s.watchers[i]? = some w ∧
      ((∃ cause, a = .cancel cause ∧
          s'.signal = (s.signal.sendIfModified (claim cause)).2 ∧
          w' = { w with receiver := w.receiver.notify (s.signal.sendIfModified (claim cause)).1 }) ∨
        (a = .resume i ∧ s'.signal = s.signal ∧ w.resume s.signal = some w') ∨
        (a = .drop i ∧ s'.signal = s.signal ∧ w' = { w with point := .dropped }) ∨
        (a ≠ .resume i ∧ s'.signal = s.signal ∧ w' = w)) := by
  cases a with
  | cancel cause =>
    obtain rfl : (s.cancel cause).2 = s' := Option.some.inj h
    simp only [Inner.cancel, List.getElem?_map, Option.map_eq_some_iff] at hw'
    obtain ⟨w, hw, rfl⟩ := hw'
    exact .inr ⟨w, hw, .inl ⟨cause, rfl, rfl, rfl⟩⟩
  | cancelled =>
    obtain rfl := Option.some.inj h
    rcases Slots.get_push_cases hw' with ⟨rfl, rfl⟩ | hold
    · exact .inl ⟨rfl, rfl, by simp⟩
    · exact .inr ⟨w', hold, .inr (.inr (.inr ⟨by simp, rfl, rfl⟩))⟩
  | resume j =>
    simp only [step, Option.bind_eq_bind, Option.bind_eq_some_iff, Option.pure_def,
      Option.some.injEq] at h
    obtain ⟨w, hw, next, hnext, rfl⟩ := h
    rcases Slots.get_set_cases hw' with ⟨rfl, rfl⟩ | ⟨hne, hold⟩
    · exact .inr ⟨w, hw, .inr (.inl ⟨rfl, rfl, hnext⟩)⟩
    · have hother : Action.resume j ≠ .resume i := by simpa using hne.symm
      exact .inr ⟨w', hold, .inr (.inr (.inr ⟨hother, rfl, rfl⟩))⟩
  | drop j =>
    simp only [step, Option.bind_eq_bind, Option.bind_eq_some_iff, Option.pure_def,
      Option.some.injEq] at h
    obtain ⟨w, hw, rfl⟩ := h
    rcases Slots.get_set_cases hw' with ⟨rfl, rfl⟩ | ⟨-, hold⟩
    · exact .inr ⟨w, hw, .inr (.inr (.inl ⟨rfl, rfl, rfl⟩))⟩
    · exact .inr ⟨w', hold, .inr (.inr (.inr ⟨by simp, rfl, rfl⟩))⟩

theorem step_keeps_watcher {s s' : Inner} {a : Action} {i : ℕ} {w : Watcher}
    (h : step s a = some s') (hw : s.watchers[i]? = some w) : ∃ w', s'.watchers[i]? = some w' := by
  have hlen : s.watchers.length ≤ s'.watchers.length := by
    cases a with
    | cancel cause =>
      obtain rfl : (s.cancel cause).2 = s' := Option.some.inj h
      simp [Inner.cancel]
    | cancelled =>
      obtain rfl := Option.some.inj h
      simp
    | resume j =>
      simp only [step, Option.bind_eq_bind, Option.bind_eq_some_iff, Option.pure_def,
        Option.some.injEq] at h
      obtain ⟨u, -, next, -, rfl⟩ := h
      simp
    | drop j =>
      simp only [step, Option.bind_eq_bind, Option.bind_eq_some_iff, Option.pure_def,
        Option.some.injEq] at h
      obtain ⟨u, -, rfl⟩ := h
      simp
  obtain ⟨hi, -⟩ := List.getElem?_eq_some_iff.mp hw
  exact ⟨_, List.getElem?_eq_getElem (Nat.lt_of_lt_of_le hi hlen)⟩

/-- A call waits for a change only after it found no cause in what it looked at. -/
structure Sound (signal : Channel (Option CancellationCause)) (w : Watcher) : Prop where
  attends : signal.Attends w.receiver
  found_none : w.point = .watching → signal.Knows (· = none) w.receiver
  found : ∀ cause, w.point = .returned cause → signal.value = some cause

theorem resume_sound {signal : Channel (Option CancellationCause)} {w w' : Watcher}
    (h : w.resume signal = some w') (hs : Sound signal w) : Sound signal w' := by
  obtain ⟨receiver, point⟩ := w
  cases point with
  | looking =>
    have hattends := signal.attends_borrowAndUpdate receiver
    have hknows : signal.value = none →
        signal.Knows (· = none) (signal.borrowAndUpdate receiver).2 :=
      fun hnone => Channel.knows_borrowAndUpdate hnone
    cases hv : signal.value with
    | none =>
      simp only [Watcher.resume, Channel.borrowAndUpdate, hv, Option.some.injEq] at h
      subst h
      exact ⟨hattends, fun _ => hknows hv, by simp⟩
    | some cause =>
      simp only [Watcher.resume, Channel.borrowAndUpdate, hv, Option.some.injEq] at h
      subst h
      exact ⟨hattends, by simp, by simp [hv]⟩
  | watching =>
    have hattends := signal.attends_pollChanged receiver
    rcases Channel.pollChanged_cases signal receiver with ⟨-, he⟩ | ⟨-, he⟩
    · simp only [Watcher.resume, he, Option.some.injEq] at h
      rw [he] at hattends
      subst h
      exact ⟨hattends, fun _ => hs.found_none rfl, by simp⟩
    · simp only [Watcher.resume, he, Option.some.injEq] at h
      rw [he] at hattends
      subst h
      exact ⟨hattends, by simp, by simp⟩
  | returned cause => cases h
  | dropped => cases h

theorem step_sound {s s' : Inner} {a : Action} (h : step s a = some s')
    (hs : ∀ (i : ℕ) (w : Watcher), s.watchers[i]? = some w → Sound s.signal w) :
    ∀ (i : ℕ) (w : Watcher), s'.watchers[i]? = some w → Sound s'.signal w := by
  intro i w' hw'
  rcases step_watcher h hw' with ⟨hsig, rfl, -⟩ | ⟨w, hw, hcase⟩
  · rw [hsig]
    exact ⟨s.signal.attends_subscribe, by simp, by simp⟩
  have hold := hs i w hw
  rcases hcase with ⟨cause, rfl, hsig, rfl⟩ | ⟨rfl, hsig, hresume⟩ | ⟨rfl, hsig, rfl⟩ |
    ⟨-, hsig, rfl⟩
  · have hfound : ∀ first, w.point = .returned first → s'.signal.value = some first :=
      fun first hpoint => step_cause h (hold.found first hpoint)
    rw [hsig] at hfound ⊢
    exact ⟨hold.attends.sendIfModified _,
      fun hpoint => (hold.found_none hpoint).sendIfModified hold.attends _, hfound⟩
  · rw [hsig]
    exact resume_sound hresume hold
  · rw [hsig]
    exact ⟨hold.attends, by simp, by simp⟩
  · rw [hsig]
    exact hold

theorem sound_reachable {s : Inner} (h : Reachable system s) :
    ∀ (i : ℕ) (w : Watcher), s.watchers[i]? = some w → Sound s.signal w := by
  induction h with
  | init hi =>
    obtain rfl := hi
    simp [Inner.new]
  | step _ _ hst ih => exact step_sound hst ih

/-! ### What a call still takes once it is told -/

theorem resume_owed {signal : Channel (Option CancellationCause)} {w w' : Watcher}
    {cause : CancellationCause} (h : w.resume signal = some w') (hs : Sound signal w)
    (hc : signal.value = some cause) : w'.point.owed + 1 = w.point.owed := by
  obtain ⟨receiver, point⟩ := w
  cases point with
  | looking =>
    simp only [Watcher.resume, Channel.borrowAndUpdate, hc, Option.some.injEq] at h
    subst h
    rfl
  | watching =>
    have hseen : receiver.seen ≠ signal.version := by
      intro hseen
      have hnone : signal.value = none := hs.found_none rfl hseen
      rw [hc] at hnone
      cases hnone
    rcases Channel.pollChanged_cases signal receiver with ⟨hsame, -⟩ | ⟨-, he⟩
    · exact absurd hsame hseen
    · simp only [Watcher.resume, he, Option.some.injEq] at h
      subst h
      rfl
  | returned cause => cases h
  | dropped => cases h

theorem resume_not_dropped {signal : Channel (Option CancellationCause)} {w w' : Watcher}
    (h : w.resume signal = some w') : w'.point ≠ .dropped := by
  simp only [Watcher.resume] at h
  split at h
  · split at h <;> simp [← Option.some.inj h]
  · split at h <;> simp [← Option.some.inj h]
  · cases h
  · cases h

theorem step_owed {s s' : Inner} {a : Action} {i : ℕ} {w : Watcher} {cause : CancellationCause}
    (h : step s a = some s') (hs : Sound s.signal w) (hc : s.cause = some cause)
    (hw : s.watchers[i]? = some w) (ha : a ≠ .drop i) (hlive : w.point ≠ .dropped) :
    ∃ w', s'.watchers[i]? = some w' ∧ w'.point ≠ .dropped ∧
      w'.point.owed + (if a = .resume i then 1 else 0) = w.point.owed := by
  obtain ⟨w', hw'⟩ := step_keeps_watcher h hw
  refine ⟨w', hw', ?_⟩
  rcases step_watcher h hw' with ⟨-, -, hnone⟩ | ⟨old, hold, hcase⟩
  · rw [hw] at hnone
    cases hnone
  obtain rfl : w = old := Option.some.inj (hw.symm.trans hold)
  rcases hcase with ⟨other, rfl, -, rfl⟩ | ⟨rfl, -, hresume⟩ | ⟨rfl, -, -⟩ | ⟨hne, -, rfl⟩
  · simp [hlive]
  · have howed := resume_owed hresume hs hc
    simp [resume_not_dropped hresume, howed]
  · exact absurd rfl ha
  · simp [hlive, hne]

theorem run_owed {as : List Action} {s t : Inner} {i : ℕ} {w : Watcher}
    {cause : CancellationCause} (hs : Reachable system s) (h : system.run s as = some t)
    (hc : s.cause = some cause) (hw : s.watchers[i]? = some w) (hdrop : .drop i ∉ as)
    (hlive : w.point ≠ .dropped) :
    t.cause = some cause ∧ ∃ w', t.watchers[i]? = some w' ∧ w'.point ≠ .dropped ∧
      w'.point.owed + as.count (.resume i) = w.point.owed := by
  -- Induction on the run: no other step changes what this call still takes.
  induction as generalizing s w with
  | nil =>
    obtain rfl := Option.some.inj h
    exact ⟨hc, w, hw, hlive, by simp⟩
  | cons a as ih =>
    obtain ⟨s', hst, hrun⟩ := Option.bind_eq_some_iff.mp h
    have ha : a ≠ .drop i := fun he => hdrop (by simp [he])
    have hrest : Action.drop i ∉ as := fun hmem => hdrop (List.mem_cons_of_mem a hmem)
    obtain ⟨u, hu, hulive, hstep⟩ :=
      step_owed hst (sound_reachable hs i w hw) hc hw ha hlive
    obtain ⟨hcause, w', hw', hlive', howed⟩ :=
      ih (hs.next a hst) hrun (step_cause hst hc) hu hrest hulive
    have hcount : (a :: as).count (.resume i) =
        as.count (.resume i) + if a = .resume i then 1 else 0 := by
      simp [List.count_cons]
    exact ⟨hcause, w', hw', hlive', by omega⟩

theorem returned_of_owed {signal : Channel (Option CancellationCause)} {w : Watcher}
    {cause : CancellationCause} (hs : Sound signal w) (hc : signal.value = some cause)
    (hlive : w.point ≠ .dropped) (howed : w.point.owed = 0) : w.point = .returned cause := by
  cases hpoint : w.point with
  | looking =>
    rw [hpoint] at howed
    cases howed
  | watching =>
    rw [hpoint] at howed
    cases howed
  | returned first =>
    have hfirst := hs.found first hpoint
    rw [hc] at hfirst
    rw [Option.some.inj hfirst]
  | dropped => exact absurd hpoint hlive

theorem awake {signal : Channel (Option CancellationCause)} {w : Watcher}
    {cause : CancellationCause} (hs : Sound signal w) (hc : signal.value = some cause)
    (hpoint : w.point = .watching) : w.receiver.waiting = false :=
  hs.attends.awake (hs.found_none hpoint) (by simp [hc])

theorem cancellation_wakes {s : Inner} {calls : Calls} (h : Reachable recorded (s, calls)) :
    FirstClaimed s.cause calls ∧
    (∀ w ∈ s.watchers, ∀ cause, w.point = .returned cause → s.cause = some cause) ∧
    ∀ cause, s.cause = some cause →
      (∀ w ∈ s.watchers, w.point = .watching → w.receiver.waiting = false) ∧
      ∀ (as : List Action) (t : Inner) (i : ℕ) (w : Watcher), system.run s as = some t →
        s.watchers[i]? = some w → w.point ≠ .dropped → .drop i ∉ as →
        ∃ w', t.watchers[i]? = some w' ∧
          w'.point.owed + as.count (.resume i) = w.point.owed ∧
          (w'.point.owed = 0 → w'.point = .returned cause) := by
  have hs : Reachable system s := h.unrecorded
  have hsound := sound_reachable hs
  have hfirst : FirstClaimed s.cause calls := by
    apply h.invariant (I := fun p => FirstClaimed p.1.cause p.2)
    · rintro ⟨s, calls⟩ ⟨hs, hcalls⟩
      obtain rfl := hs
      exact hcalls
    · intro p p' a _ hf _ hst
      obtain ⟨hst, hnote⟩ := recording_step hst
      rw [hnote]
      exact firstClaimed_step hst hf
  refine ⟨hfirst, ?_, fun cause hc => ⟨?_, ?_⟩⟩
  · intro w hw cause hpoint
    obtain ⟨i, hi⟩ := List.getElem?_of_mem hw
    exact (hsound i w hi).found cause hpoint
  · intro w hw hpoint
    obtain ⟨i, hi⟩ := List.getElem?_of_mem hw
    exact awake (hsound i w hi) hc hpoint
  · intro as t i w hrun hw hlive hdrop
    obtain ⟨hcause, w', hw', hlive', howed⟩ := run_owed hs hrun hc hw hdrop hlive
    have hsound' := sound_reachable (reachable_of_run hs hrun) i w' hw'
    exact ⟨w', hw', howed, returned_of_owed hsound' hcause hlive'⟩

def asleepThenTold : List Action :=
  [.cancelled, .resume 0, .resume 0, .cancel .user, .cancel .streamIdleTimeout]

/-- The call was waiting when the user cancelled; two turns later it has the cause. -/
theorem cancellation_wakes_user :
    ∃ s t : Inner, s.watchers[0]? = some ⟨⟨0, false⟩, .watching⟩ ∧
      system.run s [.resume 0, .resume 0] = some t ∧
      ∃ w', t.watchers[0]? = some w' ∧ w'.point = .returned .user := by
  let s : Inner := ⟨⟨some .user, 1⟩, [⟨⟨0, false⟩, .watching⟩]⟩
  let t : Inner := ⟨⟨some .user, 1⟩, [⟨⟨1, false⟩, .returned .user⟩]⟩
  have hrun : recorded.run (.new, []) asleepThenTold =
      some (s, [(.user, true), (.streamIdleTimeout, false)]) := rfl
  have hstart : Reachable recorded (.new, []) := .init ⟨rfl, rfl⟩
  have hs := reachable_of_run hstart hrun
  obtain ⟨w', hw', howed, hreturned⟩ := ((cancellation_wakes hs).2.2 .user rfl).2
    [.resume 0, .resume 0] t 0 ⟨⟨0, false⟩, .watching⟩ rfl rfl (by decide) (by decide)
  have hcount : w'.point.owed + 2 = 2 := howed
  exact ⟨s, t, rfl, rfl, w', hw', hreturned (by omega)⟩

end MehoyRuntime.Core.Wakeup
