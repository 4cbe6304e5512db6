import MehoyRuntime.Worker.Agreement

/-!
# What a failed startup says of its process

When an error of `wait_ready_with` accounts for the process: it has been seen to exit, or
the error says that it may still be running. The result of the kill after the deadline is
discarded, and no kill is tried where the probe or the supervision itself fails.
-/

namespace MehoyRuntime.Worker

/-- Only an error with a text of its own can say that the worker may still be running;
which texts say so is a parameter. -/
def WorkerError.reportsRunning (reports : IoError → Bool) : WorkerError → Bool
  | .io text | .spawn _ text => reports text
  | _ => false

/-- A turn of the loop after which there is no other. -/
def Round.decisive (round : Round) : Bool :=
  match round.tryWait, round.probe with
  | .ok none, .ok .notYet => false
  | _, _ => true

namespace WorkerHandle

/-- No process is held, or the status of the one that is has been collected. -/
def exitObserved (handle : WorkerHandle) : Bool := handle.child.all fun child => child.exited.isSome

/-- An error comes with an observed exit or says that there was none. -/
def AccountsFor {α : Type} (reports : IoError → Bool) (ret : Return α) : Prop :=
  ∀ err, ret.result = .error err → ret.handle.exitObserved = true ∨ err.reportsRunning reports = true

/-- The startup ends in a way that its error, if it has one, can account for: by an exit, by
a deadline whose kill succeeds, by an error that itself says the worker may be running, or
by readiness the state has a transition for. -/
def startupConclusive (reports : IoError → Bool) (handle : WorkerHandle) (child : Child)
    (t : Termination) : Option Round → Bool
  | none => handle.state.canTransitionTo .failed && t.ends child
  | some round =>
    match round.tryWait, round.probe with
    | .ok (some _), _ => true
    | .error err, _ => handle.state.canTransitionTo .failed && reports err
    | .ok none, .error err => handle.state.canTransitionTo .failed && err.reportsRunning reports
    | .ok none, .ok (.ready _) => handle.state.canTransitionTo .ready
    | .ok none, .ok .notYet => true

/-- There is no process, its exit is known, or the first turn that ends the loop, or else
the deadline, is conclusive. -/
def startupAccounted (reports : IoError → Bool) (handle : WorkerHandle) (rounds : List Round)
    (t : Termination) : Bool :=
  match handle.child with
  | none => true
  | some child =>
    child.exited.isSome || handle.startupConclusive reports child t (rounds.find? Round.decisive)

variable {handle : WorkerHandle} {child : Child} {reports : IoError → Bool}

theorem moveTo_of_can {next : WorkerState} (h : handle.state.canTransitionTo next = true) :
    handle.moveTo next = ⟨.ok (), { handle with state := next }⟩ := by
  simp [moveTo, WorkerState.transitionTo, h]

theorem moveTo_of_cannot {next : WorkerState} (h : handle.state.canTransitionTo next = false) :
    handle.moveTo next = ⟨.error (.invalidState ⟨handle.state, next⟩), handle⟩ := by
  simp [moveTo, WorkerState.transitionTo, h]

/-- Turns that end nothing leave the child as it was. -/
theorem watch_eq (hopen : child.exited = none) (rounds : List Round) :
    watch child rounds =
      match rounds.find? Round.decisive with
      | none => (none, child)
      | some round =>
        match round.tryWait, round.probe with
        | .error err, _ => (some (.error (.io err)), child)
        | .ok (some status), _ =>
          (some (.error (.exitedDuringStartup status.code)), { child with exited := some status })
        | .ok none, .error err => (some (.error err), child)
        | .ok none, .ok (.ready ready) => (some (.ok ready), child)
        | .ok none, .ok .notYet => (none, child) := by
  induction rounds with
  | nil => rfl
  | cons round rest ih =>
    obtain ⟨answer, probe⟩ := round
    rcases answer with err | _ | status
    · rw [List.find?_cons_of_pos rfl]
      simp [watch, Child.tryWait, hopen]
    · rcases probe with err | _ | ready
      · rw [List.find?_cons_of_pos rfl]
        simp [watch, Child.tryWait, hopen]
      · rw [List.find?_cons_of_neg (by simp [Round.decisive]), ← ih]
        simp [watch, Child.tryWait, hopen]
      · rw [List.find?_cons_of_pos rfl]
        simp [watch, Child.tryWait, hopen]
    · rw [List.find?_cons_of_pos rfl]
      simp [watch, Child.tryWait, hopen]

theorem watch_exited {status : ExitStatus} (hexited : child.exited = some status)
    (rounds : List Round) : (watch child rounds).2 = child := by
  cases rounds with
  | nil => rfl
  | cons round rest => simp [watch, Child.tryWait, hexited]

theorem tryWait_open {answer : Except IoError (Option ExitStatus)} (hopen : child.exited = none)
    (h : collected (child.tryWait answer).1 = false) : (child.tryWait answer).2 = child := by
  unfold Child.tryWait at *
  rw [hopen] at *
  rcases answer with err | _ | status
  · rfl
  · rfl
  · cases h

theorem ends_of_exited {status : ExitStatus} (t : Termination) (h : child.exited = some status) :
    t.ends child = true := by
  simp [Termination.ends, Termination.kill, Child.tryWait, h, collected]

theorem kill_eq (t : Termination) (child : Child) :
    t.kill child =
      if collected (child.tryWait t.tryWait).1 then (none, (child.tryWait t.tryWait).2)
      else
        match t.injected, t.startKill with
        | some injected, _ => (some injected, (child.tryWait t.tryWait).2)
        | none, .ok () => (none, (child.tryWait t.tryWait).2)
        | none, .error err =>
          let again := (child.tryWait t.tryWait).2.tryWait t.tryWaitAgain
          if collected again.1 then (none, again.2) else (some err, again.2) := rfl

theorem kill_refused {t : Termination} {err : IoError} {killed : Child} (hopen : child.exited = none)
    (h : t.kill child = (some err, killed)) : killed = child := by
  rw [kill_eq] at h
  split at h
  · cases h
  · rename_i hfirst
    rw [tryWait_open hopen (Bool.eq_false_iff.mpr hfirst)] at h
    split at h
    · cases h
      rfl
    · cases h
    · dsimp only at h
      split at h
      · cases h
      · rename_i hagain
        rw [tryWait_open hopen (Bool.eq_false_iff.mpr hagain)] at h
        cases h
        rfl

@[simp] theorem tryWait_pid (child : Child) (answer : Except IoError (Option ExitStatus)) :
    (child.tryWait answer).2.pid = child.pid := by
  unfold Child.tryWait
  split <;> rfl

theorem kill_pid (t : Termination) (child : Child) : (t.kill child).2.pid = child.pid := by
  rw [kill_eq]
  split
  · simp
  · split
    · simp
    · simp
    · dsimp only
      split <;> simp

theorem waitWithin_unanswered {answer : Option (Except IoError ExitStatus)}
    (h : ∀ status, (child.waitWithin answer).1 ≠ some (.ok status)) :
    (child.waitWithin answer).2 = { child with stdin := false } := by
  unfold Child.waitWithin Child.wait at *
  rcases answer with _ | err | status <;> cases hexited : child.exited <;> simp_all

/-- A termination that fails keeps the child, which has not been seen to exit if it had not
been before, and reports why. -/
theorem terminate_kept {t : Termination} (hchild : handle.child = some child)
    (hends : t.ends child = false) : ∃ err child', child'.pid = child.pid ∧
      (child.exited = none → child'.exited = none) ∧
      handle.terminate t = ⟨.error (.io err), { handle with child := some child' }.flushOutput⟩ := by
  unfold Termination.ends at hends
  have hpid := kill_pid t child
  simp only [terminate, hchild]
  cases hkill : t.kill child with
  | mk refused killed =>
    rw [hkill] at hpid hends
    cases refused with
    | none => cases hends
    | some err =>
      have hunanswered : ∀ status, (killed.waitWithin t.waited).1 ≠ some (.ok status) := by
        intro status hstatus
        simp only [hstatus] at hends
        cases hends
      have hwaited := waitWithin_unanswered hunanswered
      refine ⟨err, { killed with stdin := false }, hpid, fun hopen => ?_, ?_⟩
      · rw [kill_refused hopen hkill]
        exact hopen
      · cases hwait : killed.waitWithin t.waited with
        | mk answer waited =>
          rw [hwait] at hwaited hunanswered
          obtain rfl : waited = { killed with stdin := false } := hwaited
          rcases answer with _ | err' | status
          · simp [hwait]
          · simp [hwait]
          · exact absurd rfl (hunanswered status)

theorem terminate_ended {t : Termination} (hchild : handle.child = some child)
    (hends : t.ends child = true) :
    handle.terminate t = ⟨.ok (), { handle with child := none }.flushOutput⟩ := by
  rcases terminate_cases t handle with ⟨hr, -⟩ | ⟨err, other, child', hother, hfails, -⟩
  · exact hr
  · rw [hchild] at hother
    cases hother
    rw [hends] at hfails
    cases hfails

theorem terminate_unobserved {t : Termination} (hchild : handle.child = some child)
    (hopen : child.exited = none) (hends : t.ends child = false) :
    (handle.terminate t).handle.exitObserved = false := by
  obtain ⟨err, child', -, hstill, hr⟩ := terminate_kept hchild hends
  rw [hr]
  simp [exitObserved, flushOutput, hstill hopen]

theorem terminate_observed {t : Termination} (hchild : handle.child = some child)
    (hends : t.ends child = true) : (handle.terminate t).handle.exitObserved = true := by
  rw [terminate_ended hchild hends]
  rfl

theorem accountsFor_error {α : Type} {err : WorkerError} {after : WorkerHandle} :
    AccountsFor (α := α) reports ⟨.error err, after⟩ ↔
      after.exitObserved = true ∨ err.reportsRunning reports = true := by
  constructor
  · exact fun h => h err rfl
  · rintro h other ⟨⟩
    exact h

theorem accountsFor_ok {α : Type} {value : α} {after : WorkerHandle} :
    AccountsFor reports (⟨.ok value, after⟩ : Return α) := by
  rintro err ⟨⟩

theorem exitObserved_open (hchild : handle.child = some child) (hopen : child.exited = none) :
    handle.exitObserved = false := by
  simp [exitObserved, hchild, hopen]

theorem deadline_accounts (elapsed : ℕ) (t : Termination) (hchild : handle.child = some child)
    (hopen : child.exited = none) :
    AccountsFor reports (handle.started none elapsed t) ↔
      handle.startupConclusive reports child t none = true := by
  unfold started startupConclusive
  cases hcan : handle.state.canTransitionTo .failed with
  | false =>
    rw [moveTo_of_cannot hcan]
    simp [Return.andThen, accountsFor_error, exitObserved_open hchild hopen, WorkerError.reportsRunning]
  | true =>
    rw [moveTo_of_can hcan]
    have hmoved : ({ handle with state := .failed } : WorkerHandle).child = some child := hchild
    simp only [Return.andThen, accountsFor_error, WorkerError.reportsRunning, Bool.true_and,
      Bool.false_eq_true, or_false]
    cases hends : t.ends child with
    | true => simp [terminate_observed hmoved hends]
    | false => simp [terminate_unobserved hmoved hopen hends]

theorem failed_accounts {err : WorkerError} (elapsed : ℕ) (t : Termination) :
    AccountsFor reports (handle.started (some (.error err)) elapsed t) ↔
      handle.exitObserved = true ∨
        (handle.state.canTransitionTo .failed && err.reportsRunning reports) = true := by
  unfold started
  cases hcan : handle.state.canTransitionTo .failed with
  | false =>
    rw [moveTo_of_cannot hcan]
    simp [Return.andThen, accountsFor_error, WorkerError.reportsRunning]
  | true =>
    rw [moveTo_of_can hcan]
    simp [Return.andThen, accountsFor_error, exitObserved]

theorem ready_accounts {ready : WorkerReady} (elapsed : ℕ) (t : Termination) :
    AccountsFor reports (handle.started (some (.ok ready)) elapsed t) ↔
      handle.exitObserved = true ∨ handle.state.canTransitionTo .ready = true := by
  unfold started
  cases hcan : handle.state.canTransitionTo .ready with
  | false =>
    rw [moveTo_of_cannot hcan]
    simp [Return.andThen, accountsFor_error, WorkerError.reportsRunning]
  | true =>
    rw [moveTo_of_can hcan]
    simp [Return.andThen, accountsFor_ok]

/-- An exit that is known already accounts for every end of the startup. -/
theorem started_observed {status : ExitStatus} (hchild : handle.child = some child)
    (hexited : child.exited = some status) (outcome : Option (Except WorkerError WorkerReady))
    (elapsed : ℕ) (t : Termination) : AccountsFor reports (handle.started outcome elapsed t) := by
  have hobserved : handle.exitObserved = true := by simp [exitObserved, hchild, hexited]
  rcases outcome with _ | err | ready
  · unfold started
    cases hcan : handle.state.canTransitionTo .failed with
    | false =>
      rw [moveTo_of_cannot hcan]
      exact accountsFor_error.mpr (.inl hobserved)
    | true =>
      rw [moveTo_of_can hcan]
      have hmoved : ({ handle with state := .failed } : WorkerHandle).child = some child := hchild
      exact accountsFor_error.mpr (.inl (terminate_observed hmoved (ends_of_exited t hexited)))
  · exact (failed_accounts elapsed t).mpr (.inl hobserved)
  · exact (ready_accounts elapsed t).mpr (.inl hobserved)

/-- An error of `wait_ready_with` accounts for the process exactly where the startup is
accounted for. -/
theorem waitReadyWith_accounts_iff (reports : IoError → Bool) (handle : WorkerHandle)
    (rounds : List Round) (elapsed : ℕ) (t : Termination) :
    AccountsFor reports (handle.waitReadyWith rounds elapsed t) ↔
      handle.startupAccounted reports rounds t = true := by
  unfold waitReadyWith startupAccounted
  cases hchild : handle.child with
  | none => simp [accountsFor_error, exitObserved, hchild]
  | some child =>
    dsimp only
    cases hexited : child.exited with
    | some status =>
      rw [watch_exited hexited]
      simpa using started_observed rfl hexited _ elapsed t
    | none =>
      have hopen : ({ handle with child := some child } : WorkerHandle).exitObserved = false :=
        exitObserved_open rfl hexited
      rw [watch_eq hexited, Option.isSome_none, Bool.false_or]
      cases hround : rounds.find? Round.decisive with
      | none => exact deadline_accounts elapsed t rfl hexited
      | some round =>
        obtain ⟨answer, probe⟩ := round
        rcases answer with err | _ | status
        · simp [failed_accounts, hopen, startupConclusive, WorkerError.reportsRunning]
        · rcases probe with err | _ | ready
          · simp [failed_accounts, hopen, startupConclusive]
          · cases List.find?_some hround
          · simp [ready_accounts, hopen, startupConclusive]
        · simp [failed_accounts, exitObserved, startupConclusive]

/-- A kill that the system refuses, and a process that does not end within the deadline. -/
def refusedTermination : Termination :=
  ⟨.ok none, none, .error "Operation not permitted (os error 1)", .ok none, none⟩

/-- A worker that never gets ready and cannot be killed is reported as a timeout, whatever
counts as saying that it may still be running. -/
theorem waitReadyWith_hides_refusal :
    ¬ ∃ reports : IoError → Bool, ∀ (handle : WorkerHandle) rounds elapsed t,
      AccountsFor reports (handle.waitReadyWith rounds elapsed t) := by
  rintro ⟨reports, hclaim⟩
  have htimeout : (sampleHandle.waitReadyWith [⟨.ok none, .ok .notYet⟩] 0 refusedTermination).result =
      .error (.startupTimeout (30 * 10 ^ 9)) := by rfl
  rcases hclaim sampleHandle [⟨.ok none, .ok .notYet⟩] 0 refusedTermination _ htimeout with hgone | hsaid
  · cases hgone
  · cases hsaid

end WorkerHandle
end MehoyRuntime.Worker
