import MehoyRuntime.Worker.Startup

/-!
# What a shutdown says of the process

The handle beside the life of its process, which the supervisor only learns of from its
calls. What the system promises of each call restricts the answers that an operation can
meet; the process may exit between any two of them.
-/

namespace MehoyRuntime.Worker
open TransitionSystem

inductive Life
  | running
  | signalled
  | exited
  deriving DecidableEq, Repr

namespace Life

/-- Nothing is done to the process, which may exit. -/
def Later (before after : Life) : Prop := after = before ∨ after = .exited

/-- `try_wait` has a status only of a process that has exited. -/
def TryWaits (before : Life) (answer : Except IoError (Option ExitStatus)) (after : Life) : Prop :=
  before.Later after ∧ (collected answer = true → after = .exited)

/-- `start_kill` signals a process that has not exited, unless it is refused. -/
def Kills (before : Life) (answer : Except IoError Unit) (after : Life) : Prop :=
  match answer with
  | .ok () => after = .exited ∨ before ≠ .exited ∧ after = .signalled
  | .error _ => before.Later after

/-- `wait` returns a status only of a process that has exited, and of one that was signalled
or has exited it returns nothing before the exit. -/
def Waits (before : Life) (answer : Option (Except IoError ExitStatus)) (after : Life) : Prop :=
  before.Later after ∧ (∀ status, answer = some (.ok status) → after = .exited) ∧
    (before ≠ .running → answer ≠ none → after = .exited)

/-- A `wait` without a deadline whose answer nobody looks at. -/
def WaitsOut (before after : Life) : Prop := ∃ answer, Waits before (some answer) after

end Life

/-- The calls of `terminate` in their order, as far as they are made. -/
def Termination.Happens (t : Termination) (child : Child) (before after : Life) : Prop :=
  ∃ asked, before.TryWaits (child.tryWait t.tryWait).1 asked ∧
    if collected (child.tryWait t.tryWait).1 then asked.WaitsOut after
    else
      let child := (child.tryWait t.tryWait).2
      match t.injected, t.startKill with
      | some _, _ => asked.Waits (child.waitWithin t.waited).1 after
      | none, .ok () => ∃ killed, asked.Kills (.ok ()) killed ∧ killed.WaitsOut after
      | none, .error err => ∃ killed again, asked.Kills (.error err) killed ∧
          killed.TryWaits (child.tryWait t.tryWaitAgain).1 again ∧
          if collected (child.tryWait t.tryWaitAgain).1 then again.WaitsOut after
          else again.Waits ((child.tryWait t.tryWaitAgain).2.waitWithin t.waited).1 after

def Stop.Happens (stop : Stop) (handle : WorkerHandle) (before after : Life) : Prop :=
  match handle.child with
  | none => before.Later after
  | some child =>
    match handle.stop with
    | .terminate => stop.termination.Happens child before after
    | .shutdownLine =>
      let asked := { child with stdin := false }.waitWithin stop.waited
      ∃ waited, before.Waits asked.1 waited ∧
        match asked.1 with
        | some _ => waited.Later after
        | none => stop.termination.Happens asked.2 waited after

/-- What the turns of a startup are answered is left open. -/
def Operation.Happens (handle : WorkerHandle) (before after : Life) : Operation → Prop
  | .waitReady turns _ t => HappensAtDeadline (turns.map fun turn => ⟨turn.1, .ok (announced turn.2)⟩) t
  | .waitReadyWith rounds _ t => HappensAtDeadline rounds t
  | .markReady | .markFailed => before.Later after
  | .shutdown stop => stop.Happens handle before after
  | .wait answer =>
    match handle.child with
    | none => before.Later after
    | some child => before.Waits (some (child.wait answer).1) after
where
  HappensAtDeadline (rounds : List Round) (t : Termination) : Prop :=
    match handle.child with
    | none => before.Later after
    | some child =>
      ∃ watched, before.Later watched ∧
        match (WorkerHandle.watch child rounds).1, handle.state.canTransitionTo .failed with
        | none, true => t.Happens (WorkerHandle.watch child rounds).2 watched after
        | _, _ => watched.Later after

/-- One handle and its process; a label is an operation and the life it leaves. -/
def supervision : System (WorkerHandle × Life) (Operation × Life) where
  init s := ∃ spec pid, spawn spec (.ok pid) = .ok s.1
  step s a := some (s.1.perform a.1, a.2)

def Possible (s : WorkerHandle × Life) (a : Operation × Life) : Prop :=
  a.1.Happens s.1 s.2 a.2

namespace Life
variable {before after : Life}

theorem Later.exited (h : Life.exited.Later after) : after = .exited := by
  rcases h with h | h <;> exact h

theorem WaitsOut.exited (h : before.WaitsOut after) (hended : before ≠ .running) : after = .exited := by
  obtain ⟨answer, -, -, hwaited⟩ := h
  exact hwaited hended (by simp)

theorem Kills.not_running (h : before.Kills (.ok ()) after) : after ≠ .running := by
  rcases h with rfl | ⟨-, rfl⟩ <;> simp

end Life

theorem Child.waitWithin_pid (child : Child) (answer : Option (Except IoError ExitStatus)) :
    (child.waitWithin answer).2.pid = child.pid := by
  unfold Child.waitWithin Child.wait
  split
  · rfl
  · rfl
  · dsimp only
    split <;> rfl

variable {child : Child} {before after : Life}

/-- A termination that ends the process has it exit before it is back. -/
theorem Termination.Happens.exited {t : Termination} (h : t.Happens child before after)
    (hends : t.ends child = true) : after = .exited := by
  obtain ⟨asked, ⟨-, hasked⟩, h⟩ := h
  unfold Termination.ends at hends
  rw [WorkerHandle.kill_eq] at hends
  split at h
  · rename_i hgone
    exact h.exited (by simp [hasked hgone])
  · rename_i hkept
    rw [if_neg hkept] at hends
    rcases hinjected : t.injected with _ | injected
    · rcases hkill : t.startKill with err | _
      · simp only [hinjected, hkill] at h hends
        obtain ⟨killed, again, -, ⟨-, hagain⟩, h⟩ := h
        split at h
        · rename_i hgone
          exact h.exited (by simp [hagain hgone])
        · rename_i hkept'
          rw [if_neg hkept'] at hends
          dsimp only at hends
          split at hends
          · rename_i status hstatus
            exact h.2.1 status hstatus
          · cases hends
      · simp only [hinjected, hkill] at h
        obtain ⟨killed, hkilled, h⟩ := h
        exact h.exited hkilled.not_running
    · simp only [hinjected] at h hends
      split at hends
      · rename_i status hstatus
        exact h.2.1 status hstatus
      · cases hends

namespace WorkerHandle
variable {handle : WorkerHandle}

theorem shutdown_terminates (hstop : handle.stop = .terminate) (hchild : handle.child = some child)
    (stop : Stop) :
    (stop.termination.ends child = true ∧ (handle.shutdown stop).result = .ok ⟨.requested⟩ ∧
      (handle.shutdown stop).handle.child = none) ∨
    (stop.termination.ends child = false ∧ ∃ err child',
      (handle.shutdown stop).result = .error (.io err) ∧
      (handle.shutdown stop).handle.child = some child' ∧ child'.pid = child.pid) := by
  obtain ⟨id, state, _, drains, deadlines, _⟩ := handle
  cases hstop
  cases hchild
  have hbegun : (⟨id, stoppingFrom state, some child, drains, deadlines, .terminate⟩ :
      WorkerHandle).child = some child := rfl
  cases hends : stop.termination.ends child with
  | true =>
    refine .inl ⟨rfl, ?_⟩
    simp [shutdown, beginStopping_eq, Return.andThen, terminate_ended hbegun hends, settle_eq, flushOutput]
  | false =>
    obtain ⟨err, child', hpid, -, hr⟩ := terminate_kept hbegun hends
    refine .inr ⟨rfl, err, child', ?_⟩
    simp [shutdown, beginStopping_eq, Return.andThen, hr, flushOutput, hpid]

theorem shutdown_asks (hstop : handle.stop = .shutdownLine) (hchild : handle.child = some child)
    (stop : Stop) {answer : Option (Except IoError ExitStatus)} {asked : Child}
    (hasked : { child with stdin := false }.waitWithin stop.waited = (answer, asked)) :
    (∃ status, answer = some (.ok status) ∧ (handle.shutdown stop).result = .ok ⟨.requested⟩ ∧
      (handle.shutdown stop).handle.child = none) ∨
    (∃ err, answer = some (.error err) ∧ (handle.shutdown stop).result = .error (.io err) ∧
      (handle.shutdown stop).handle.child = some asked) ∨
    (answer = none ∧ stop.termination.ends asked = true ∧
      (handle.shutdown stop).result = .error (.shutdownTimeout handle.deadlines.shutdown) ∧
      (handle.shutdown stop).handle.child = none) ∨
    (answer = none ∧ stop.termination.ends asked = false ∧ ∃ err child',
      (handle.shutdown stop).result = .error (.io err) ∧
      (handle.shutdown stop).handle.child = some child' ∧ child'.pid = asked.pid) := by
  obtain ⟨id, state, _, drains, deadlines, _⟩ := handle
  cases hstop
  cases hchild
  rcases answer with _ | err | status
  · have hbegun : (⟨id, stoppingFrom state, some asked, drains, deadlines, .shutdownLine⟩ :
        WorkerHandle).child = some asked := rfl
    cases hends : stop.termination.ends asked with
    | true =>
      refine .inr (.inr (.inl ⟨rfl, rfl, ?_⟩))
      simp [shutdown, beginStopping_eq, Return.andThen, hasked, terminate_ended hbegun hends, flushOutput]
    | false =>
      obtain ⟨err, child', hpid, -, hr⟩ := terminate_kept hbegun hends
      refine .inr (.inr (.inr ⟨rfl, rfl, err, child', ?_⟩))
      simp [shutdown, beginStopping_eq, Return.andThen, hasked, hr, flushOutput, hpid]
  · refine .inr (.inl ⟨err, rfl, ?_⟩)
    simp [shutdown, beginStopping_eq, Return.andThen, hasked]
  · refine .inl ⟨status, rfl, ?_⟩
    simp [shutdown, beginStopping_eq, Return.andThen, hasked, settle_eq, flushOutput]

/-! ### What the result of a shutdown means -/

/-- `Ok`, or the timeout after which the worker was killed. -/
def ReportsGone : Except WorkerError WorkerExit → Prop
  | .ok _ | .error (.shutdownTimeout _) => True
  | .error _ => False

theorem shutdown_none (hchild : handle.child = none) (stop : Stop) :
    (handle.shutdown stop).result = .ok ⟨.requested⟩ ∧ (handle.shutdown stop).handle.child = none := by
  obtain ⟨id, state, _, drains, deadlines, protocol⟩ := handle
  cases hchild
  cases protocol <;>
    simp [shutdown, beginStopping_eq, Return.andThen, terminate, settle_eq, flushOutput]

theorem shutdown_gone {stop : Stop} (hgone : handle.child = none → before = .exited)
    (h : stop.Happens handle before after) (hr : ReportsGone (handle.shutdown stop).result) :
    after = .exited ∧ (handle.shutdown stop).handle.child = none := by
  unfold Stop.Happens at h
  cases hchild : handle.child with
  | none =>
    rw [hchild] at h
    rw [hgone hchild] at h
    exact ⟨h.exited, (shutdown_none hchild stop).2⟩
  | some child =>
    simp only [hchild] at h
    cases hstop : handle.stop with
    | terminate =>
      simp only [hstop] at h
      rcases shutdown_terminates hstop hchild stop with ⟨hends, -, hnone⟩ | ⟨-, err, child', hresult, -⟩
      · exact ⟨h.exited hends, hnone⟩
      · rw [hresult] at hr
        cases hr
    | shutdownLine =>
      simp only [hstop] at h
      obtain ⟨waited, hwaited, h⟩ := h
      cases hasked : { child with stdin := false }.waitWithin stop.waited with
      | mk answer asked =>
        rw [hasked] at hwaited h
        rcases shutdown_asks hstop hchild stop hasked with
          ⟨status, rfl, -, hnone⟩ | ⟨err, -, hresult, -⟩ | ⟨rfl, hends, -, hnone⟩ | ⟨-, -, err, child', hresult, -⟩
        · have hexited : waited = .exited := hwaited.2.1 status rfl
          rw [hexited] at h
          exact ⟨h.exited, hnone⟩
        · rw [hresult] at hr
          cases hr
        · exact ⟨h.exited hends, hnone⟩
        · rw [hresult] at hr
          cases hr

theorem shutdown_held {stop : Stop} (hr : ¬ ReportsGone (handle.shutdown stop).result) :
    ∃ child child', handle.child = some child ∧ (handle.shutdown stop).handle.child = some child' ∧
      child'.pid = child.pid := by
  cases hchild : handle.child with
  | none =>
    rw [(shutdown_none hchild stop).1] at hr
    exact absurd trivial hr
  | some child =>
    refine ⟨child, ?_⟩
    cases hstop : handle.stop with
    | terminate =>
      rcases shutdown_terminates hstop hchild stop with ⟨-, hresult, -⟩ | ⟨-, err, child', -, hkept, hpid⟩
      · rw [hresult] at hr
        exact absurd trivial hr
      · exact ⟨child', rfl, hkept, hpid⟩
    | shutdownLine =>
      have hpid := Child.waitWithin_pid { child with stdin := false } stop.waited
      cases hasked : { child with stdin := false }.waitWithin stop.waited with
      | mk answer asked =>
        rw [hasked] at hpid
        rcases shutdown_asks hstop hchild stop hasked with
          ⟨status, -, hresult, -⟩ | ⟨err, -, -, hkept⟩ | ⟨-, -, hresult, -⟩ |
          ⟨-, -, err, child', -, hkept, hpid'⟩
        · rw [hresult] at hr
          exact absurd trivial hr
        · exact ⟨asked, rfl, hkept, hpid⟩
        · rw [hresult] at hr
          exact absurd trivial hr
        · exact ⟨child', rfl, hkept, hpid'.trans hpid⟩

/-- The system accepts the kill, and waiting for the polite stop does not fail. -/
structure Accepts (stop : Stop) : Prop where
  injected : stop.termination.injected = none
  kill : stop.termination.startKill = .ok ()
  waited : ∀ err, stop.waited ≠ some (.error err)

theorem Accepts.ends {stop : Stop} (h : Accepts stop) (child : Child) :
    stop.termination.ends child = true := by
  unfold Termination.ends
  rw [kill_eq, h.injected, h.kill]
  cases collected (child.tryWait stop.termination.tryWait).1 <;> rfl

theorem waitWithin_error {answer : Option (Except IoError ExitStatus)} {err : IoError} {asked : Child}
    (h : child.waitWithin answer = (some (.error err), asked)) : answer = some (.error err) := by
  unfold Child.waitWithin Child.wait at h
  rcases answer with _ | err' | status <;> cases hexited : child.exited <;> simp_all

/-- A shutdown goes at the process it holds: it is gone once the system accepts the kill. -/
theorem shutdown_accepted {stop : Stop} (h : Accepts stop) :
    ReportsGone (handle.shutdown stop).result ∧ (handle.shutdown stop).handle.child = none := by
  cases hchild : handle.child with
  | none =>
    obtain ⟨hresult, hnone⟩ := shutdown_none hchild stop
    rw [hresult]
    exact ⟨trivial, hnone⟩
  | some child =>
    cases hstop : handle.stop with
    | terminate =>
      rcases shutdown_terminates hstop hchild stop with ⟨-, hresult, hnone⟩ | ⟨hfails, -⟩
      · rw [hresult]
        exact ⟨trivial, hnone⟩
      · rw [h.ends] at hfails
        cases hfails
    | shutdownLine =>
      cases hasked : { child with stdin := false }.waitWithin stop.waited with
      | mk answer asked =>
        rcases shutdown_asks hstop hchild stop hasked with
          ⟨status, -, hresult, hnone⟩ | ⟨err, rfl, -⟩ | ⟨-, -, hresult, hnone⟩ | ⟨-, hfails, -⟩
        · rw [hresult]
          exact ⟨trivial, hnone⟩
        · exact absurd (waitWithin_error hasked) (h.waited err)
        · rw [hresult]
          exact ⟨trivial, hnone⟩
        · rw [h.ends] at hfails
          cases hfails

/-! ### Repeated attempts -/

def attempts (handle : WorkerHandle) (stops : List Stop) : WorkerHandle :=
  stops.foldl (fun handle stop => (handle.shutdown stop).handle) handle

/-- A worker that is stopped by termination, from where it was ready on. -/
structure Terminating (handle : WorkerHandle) : Prop where
  stop : handle.stop = .terminate
  state : handle.state = .ready ∨ handle.state = .stopping ∨ handle.state = .absent

theorem Terminating.shutdown (h : handle.Terminating) (stop : Stop) :
    (handle.shutdown stop).handle.Terminating ∧
      ∀ exit, (handle.shutdown stop).result = .ok exit → (handle.shutdown stop).handle.state = .absent := by
  obtain ⟨hstop, hstate⟩ := h
  obtain ⟨id, state, child, drains, deadlines, _⟩ := handle
  cases hstop
  rcases terminate_cases stop.termination ⟨id, stoppingFrom state, child, drains, deadlines, .terminate⟩
    with ⟨hr, -⟩ | ⟨err, other, child', -, -, hr⟩
  · have hsettled : (if stoppingFrom state = .stopping then WorkerState.absent else stoppingFrom state) =
        .absent := by
      rcases hstate with hstate | hstate | hstate <;> simp_all [stoppingFrom]
    simp only [WorkerHandle.shutdown, beginStopping_eq, Return.andThen, hr, settle_eq, flushOutput, hsettled]
    exact ⟨⟨rfl, .inr (.inr rfl)⟩, by simp⟩
  · simp only [WorkerHandle.shutdown, beginStopping_eq, Return.andThen, hr, flushOutput]
    refine ⟨⟨rfl, ?_⟩, by simp⟩
    rcases hstate with hstate | hstate | hstate <;> simp_all [stoppingFrom]

theorem Terminating.attempts (h : handle.Terminating) (stops : List Stop) :
    (handle.attempts stops).Terminating := by
  induction stops generalizing handle with
  | nil => exact h
  | cons stop rest ih => exact ih (h.shutdown stop).1

/-! ### A handle without a child -/

/-- A handle holds no child only once the process has exited. -/
def Gone (s : WorkerHandle × Life) : Prop := s.1.child = none → s.2 = .exited

theorem gone_later (h : Gone (handle, before)) {after : Life} (hlater : before.Later after)
    {handle' : WorkerHandle} (hchild : handle'.child = none → handle.child = none) :
    Gone (handle', after) := by
  intro hnone
  have hexited : before = .exited := h (hchild hnone)
  rw [hexited] at hlater
  exact hlater.exited

/-- A startup lets go of its process only where the deadline's termination ended it. -/
theorem started_none {outcome : Option (Except WorkerError WorkerReady)} {elapsed : ℕ} {t : Termination}
    (hchild : handle.child = some child) (hnone : (handle.started outcome elapsed t).handle.child = none) :
    outcome = none ∧ handle.state.canTransitionTo .failed = true ∧ t.ends child = true := by
  have hmoved (next : WorkerState) : (handle.moveTo next).handle.child = some child :=
    (moveTo_child next).trans hchild
  unfold started Return.andThen at hnone
  rcases outcome with _ | err | ready
  · refine ⟨rfl, ?_⟩
    cases hcan : handle.state.canTransitionTo .failed with
    | false =>
      rw [moveTo_of_cannot hcan] at hnone
      rw [show handle.child = none from hnone] at hchild
      cases hchild
    | true =>
      rw [moveTo_of_can hcan] at hnone
      refine ⟨rfl, ?_⟩
      by_contra hfails
      have hstill : ({ handle with state := .failed } : WorkerHandle).child = some child := hchild
      obtain ⟨err, child', -, -, hr⟩ := terminate_kept hstill (Bool.eq_false_iff.mpr hfails)
      dsimp only at hnone
      rw [hr] at hnone
      cases hnone
  · dsimp only at hnone
    split at hnone <;> (rw [hmoved] at hnone; cases hnone)
  · dsimp only at hnone
    split at hnone <;> (rw [hmoved] at hnone; cases hnone)

theorem gone_deadline {rounds : List Round} (elapsed : ℕ) {t : Termination}
    (h : Gone (handle, before)) (hp : Operation.Happens.HappensAtDeadline handle before after rounds t) :
    Gone ((handle.waitReadyWith rounds elapsed t).handle, after) := by
  unfold Operation.Happens.HappensAtDeadline at hp
  unfold waitReadyWith
  cases hchild : handle.child with
  | none =>
    rw [hchild] at hp
    exact gone_later h hp fun _ => hchild
  | some child =>
    simp only [hchild] at hp
    obtain ⟨watched, -, hp⟩ := hp
    intro hnone
    obtain ⟨hwatch, hcan, hends⟩ := started_none rfl hnone
    rw [hwatch, hcan] at hp
    exact hp.exited hends

theorem gone_step {s s' : WorkerHandle × Life} {a : Operation × Life} (h : Gone s) (hp : Possible s a)
    (hst : supervision.step s a = some s') : Gone s' := by
  cases hst
  obtain ⟨handle, before⟩ := s
  obtain ⟨operation, after⟩ := a
  cases operation with
  | waitReady turns elapsed t => exact gone_deadline elapsed h hp
  | waitReadyWith rounds elapsed t => exact gone_deadline elapsed h hp
  | markReady => exact gone_later h hp fun hnone => (moveTo_child _).symm.trans hnone
  | markFailed => exact gone_later h hp fun hnone => (moveTo_child _).symm.trans hnone
  | shutdown stop =>
    intro hnone
    by_cases hr : ReportsGone (handle.shutdown stop).result
    · exact (shutdown_gone h hp hr).1
    · obtain ⟨child, child', -, hkept, -⟩ := shutdown_held hr
      rw [show (handle.shutdown stop).handle.child = none from hnone] at hkept
      cases hkept
  | wait answer =>
    simp only [Possible, Operation.Happens] at hp
    intro hnone
    simp only [perform, WorkerHandle.wait] at hnone
    cases hchild : handle.child with
    | none =>
      rw [hchild] at hp
      have hstill : Gone (handle, after) := gone_later h hp fun _ => hchild
      exact hstill hchild
    | some child =>
      simp only [hchild] at hp hnone
      cases hwait : child.wait answer with
      | mk result waited =>
        rw [hwait] at hp hnone
        rcases result with err | status
        · cases hnone
        · exact hp.2.1 status rfl

theorem reachable_gone {s : WorkerHandle × Life} (hs : ReachableWhile supervision Possible s) : Gone s := by
  refine hs.invariant ?_ fun s s' a _ h hp hst => gone_step h hp hst
  rintro ⟨handle, life⟩ ⟨spec, pid, hspawn⟩ hnone
  cases hspawn
  cases hnone

/-- What a shutdown means, on every handle that any supervision can be at: the process is gone
where it says so; otherwise the handle holds the child, and a later shutdown whose kill the
system accepts ends it. A worker that is stopped by termination once it was ready is `Absent`
after the attempt that succeeds. -/
theorem shutdown_truthful (hs : ReachableWhile supervision Possible (handle, before)) {stop : Stop}
    (h : stop.Happens handle before after) :
    (ReportsGone (handle.shutdown stop).result →
      after = .exited ∧ (handle.shutdown stop).handle.child = none) ∧
    (¬ ReportsGone (handle.shutdown stop).result →
      (∃ child child', handle.child = some child ∧
        (handle.shutdown stop).handle.child = some child' ∧ child'.pid = child.pid) ∧
      ∀ again, Accepts again → ∀ later, again.Happens (handle.shutdown stop).handle after later →
        ReportsGone ((handle.shutdown stop).handle.shutdown again).result ∧ later = .exited ∧
        ((handle.shutdown stop).handle.shutdown again).handle.child = none) ∧
    (handle.state = .ready → handle.stop = .terminate → ∀ stops last exit,
      ((handle.attempts stops).shutdown last).result = .ok exit →
        ((handle.attempts stops).shutdown last).handle.state = .absent) := by
  have hgone := reachable_gone hs
  refine ⟨fun hr => shutdown_gone hgone h hr, fun hr => ?_, fun hready hstop stops last exit hr => ?_⟩
  · obtain ⟨child, child', hchild, hkept, hpid⟩ := shutdown_held hr
    refine ⟨⟨child, child', hchild, hkept, hpid⟩, fun again haccepts later hlater => ?_⟩
    obtain ⟨hagain, hnone⟩ := shutdown_accepted haccepts
    have hstill : (handle.shutdown stop).handle.child = none → after = .exited := fun hnone => by
      rw [hkept] at hnone
      cases hnone
    exact ⟨hagain, (shutdown_gone hstill hlater hagain).1, hnone⟩
  · have hready : handle.Terminating := ⟨hstop, .inl hready⟩
    exact ((hready.attempts stops).shutdown last).2 exit hr

def terminatingHandle : WorkerHandle := ⟨1, .ready, some ⟨7, true, none⟩, 2, .default, .terminate⟩

def refusedStop : Stop := ⟨none, ⟨.ok none, some "injected", .ok (), .ok none, none⟩⟩

theorem terminatingHandle_reachable :
    ReachableWhile supervision Possible (terminatingHandle, .running) := by
  refine .step (s := (⟨1, .starting, some ⟨7, true, none⟩, 2, .default, .terminate⟩, .running))
    (a := (.markReady, .running)) (.init ⟨{ sampleSpec with stop := .terminate }, 7, rfl⟩) ?_ rfl
  exact .inl rfl

/-- The first attempt is refused and keeps the child, the second is accepted. -/
theorem shutdown_truthful_refused :
    (terminatingHandle.shutdown refusedStop).result = .error (.io "injected") ∧
      (∃ child, (terminatingHandle.shutdown refusedStop).handle.child = some child) ∧
      ((terminatingHandle.attempts [refusedStop]).shutdown ⟨none, sampleTermination⟩).handle.state =
        .absent := by
  have hresult : (terminatingHandle.shutdown refusedStop).result = .error (.io "injected") := by rfl
  have hrefused : refusedStop.Happens terminatingHandle .running .running := by
    refine ⟨.running, ⟨.inl rfl, by simp [Child.tryWait, refusedStop, collected]⟩, ?_⟩
    refine ⟨.inl rfl, fun status hstatus => ?_, fun hrunning => absurd rfl hrunning⟩
    cases hstatus
  obtain ⟨-, hheld, habsent⟩ := shutdown_truthful terminatingHandle_reachable hrefused
  obtain ⟨⟨child, child', -, hkept, -⟩, -⟩ := hheld (by rw [hresult]; exact fun hfalse => hfalse)
  exact ⟨hresult, ⟨child', hkept⟩, habsent rfl rfl [refusedStop] ⟨none, sampleTermination⟩ ⟨.requested⟩ rfl⟩

end WorkerHandle
end MehoyRuntime.Worker
