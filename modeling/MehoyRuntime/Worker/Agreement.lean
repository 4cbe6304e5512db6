import MehoyRuntime.Worker.Process

/-!
# The state of a worker and its process

What each operation does to the state and to the process of a handle, and for which
operations the two go on agreeing. Only `shutdown` can break the agreement: it ends the
process without a transition where the worker was `Starting`, and where it had to be
killed after the deadline of the polite stop.
-/

namespace MehoyRuntime.Worker
open TransitionSystem
namespace WorkerHandle

/-- Without a process the state says that there is none, or that it failed. -/
def Agrees (handle : WorkerHandle) : Prop :=
  handle.child = none → handle.state = .absent ∨ handle.state = .failed

/-- What makes a stop of the worker leave a state that promises a process. -/
def stopLosesProcess (handle : WorkerHandle) (child : Child) (stop : Stop) : Bool :=
  match handle.stop with
  | .terminate => handle.state = .starting && stop.termination.ends child
  | .shutdownLine =>
    match { child with stdin := false }.waitWithin stop.waited with
    | (some (.ok _), _) => handle.state = .starting
    | (some (.error _), _) => false
    | (none, child) =>
      handle.state ≠ .absent && handle.state ≠ .failed && stop.termination.ends child

def KeepsProcess (handle : WorkerHandle) (operation : Operation) : Prop :=
  ∀ stop child, operation = .shutdown stop → handle.child = some child →
    handle.stopLosesProcess child stop = false

variable {handle : WorkerHandle}

theorem agrees_of_child {child : Child} (h : handle.child = some child) : handle.Agrees := by
  intro hnone
  rw [h] at hnone
  cases hnone

theorem moveTo_child (next : WorkerState) : (handle.moveTo next).handle.child = handle.child := by
  unfold moveTo
  split <;> rfl

theorem moveTo_ok {next : WorkerState} (h : (handle.moveTo next).result = .ok ()) :
    (handle.moveTo next).handle.state = next := by
  unfold moveTo WorkerState.transitionTo at *
  split at h
  · rename_i state hstate
    split at hstate
    · cases hstate
      rfl
    · cases hstate
  · cases h

theorem agrees_andThen {α β : Type} {first : Return α} {next : α → WorkerHandle → Return β}
    (hfirst : first.handle.Agrees)
    (hnext : ∀ value, first.result = .ok value → (next value first.handle).handle.Agrees) :
    (first.andThen next).handle.Agrees := by
  unfold Return.andThen
  split
  · rename_i value hvalue
    exact hnext value hvalue
  · exact hfirst

/-- `terminate` takes the process and reports success, or keeps it and reports the refusal. -/
theorem terminate_cases (t : Termination) (handle : WorkerHandle) :
    (handle.terminate t = ⟨.ok (), { handle with child := none }.flushOutput⟩ ∧
      ∀ child, handle.child = some child → t.ends child = true) ∨
    ∃ err child child', handle.child = some child ∧ t.ends child = false ∧
      handle.terminate t = ⟨.error (.io err), { handle with child := some child' }.flushOutput⟩ := by
  cases hchild : handle.child with
  | none =>
    obtain ⟨id, state, child, drains, deadlines, stop⟩ := handle
    cases hchild
    exact .inl ⟨rfl, nofun⟩
  | some child =>
    simp only [terminate, hchild, Termination.ends]
    cases hkill : t.kill child with
    | mk refused killed =>
      cases refused with
      | none => exact .inl ⟨rfl, fun c hc => by cases hc; simp [hkill]⟩
      | some err =>
        cases hwait : killed.waitWithin t.waited with
        | mk answer waited =>
          rcases answer with _ | err' | status
          · exact .inr ⟨err, child, waited, rfl, by simp [hkill, hwait], by simp [hwait]⟩
          · exact .inr ⟨err, child, waited, rfl, by simp [hkill, hwait], by simp [hwait]⟩
          · exact .inl ⟨by simp [hwait], fun c hc => by cases hc; simp [hkill, hwait]⟩

def stoppingFrom (state : WorkerState) : WorkerState :=
  if state = .ready ∨ state = .draining then .stopping else state

theorem beginStopping_eq (handle : WorkerHandle) :
    handle.beginStopping = ⟨.ok (), { handle with state := stoppingFrom handle.state }⟩ := by
  obtain ⟨_, state, _⟩ := handle
  cases state <;> rfl

theorem settle_eq (handle : WorkerHandle) : handle.settle =
    ⟨.ok (), { handle with state := if handle.state = .stopping then .absent else handle.state }⟩ := by
  obtain ⟨_, state, _⟩ := handle
  cases state <;> rfl

theorem terminate_state (t : Termination) : (handle.terminate t).handle.state = handle.state := by
  rcases terminate_cases t handle with ⟨h, -⟩ | ⟨_, _, _, -, -, h⟩ <;> rw [h] <;> rfl

/-- A failed wait leaves `Failed` behind before the process is killed. -/
theorem started_agrees {child : Child} (hchild : handle.child = some child)
    (outcome : Option (Except WorkerError WorkerReady)) (elapsed : ℕ) (t : Termination) :
    (handle.started outcome elapsed t).handle.Agrees := by
  have hmoved (next : WorkerState) : (handle.moveTo next).handle.Agrees :=
    agrees_of_child ((moveTo_child next).trans hchild)
  rcases outcome with _ | err | ready
  · refine agrees_andThen (hmoved .failed) fun _ hok _ => .inr ?_
    exact (terminate_state t).trans (moveTo_ok hok)
  · exact agrees_andThen (hmoved .failed) fun _ _ => hmoved .failed
  · exact agrees_andThen (hmoved .ready) fun _ _ => hmoved .ready

theorem Agrees.waitReadyWith (h : handle.Agrees) (rounds : List Round) (elapsed : ℕ)
    (t : Termination) : (handle.waitReadyWith rounds elapsed t).handle.Agrees := by
  unfold WorkerHandle.waitReadyWith
  cases hchild : handle.child with
  | none => exact h
  | some child => exact started_agrees rfl _ elapsed t

theorem Agrees.waitReady (h : handle.Agrees)
    (turns : List (Except IoError (Option ExitStatus) × List TryRecv)) (elapsed : ℕ)
    (t : Termination) : (handle.waitReady turns elapsed t).handle.Agrees :=
  h.waitReadyWith _ elapsed t

theorem Agrees.mark {next : WorkerState} (h : handle.Agrees) (hnext : next = .ready ∨ next = .failed) :
    (handle.moveTo next).handle.Agrees := by
  intro hnone
  rw [moveTo_child] at hnone
  unfold moveTo WorkerState.transitionTo
  rcases h hnone with hstate | hstate <;> rcases hnext with rfl | rfl <;>
    simp [hstate, WorkerState.canTransitionTo]

/-- An exit nobody asked for is a failure in every state that promises a process. -/
theorem unexpected_state (handle : WorkerHandle) (status : ExitStatus) :
    (handle.unexpectedExit status).handle.state = .absent ∨
      (handle.unexpectedExit status).handle.state = .failed := by
  obtain ⟨_, state, _⟩ := handle
  cases state with
  | absent => exact .inl rfl
  | _ => exact .inr rfl

theorem Agrees.wait (h : handle.Agrees) (answer : Except IoError ExitStatus) :
    (handle.wait answer).handle.Agrees := by
  unfold WorkerHandle.wait
  cases hchild : handle.child with
  | none => exact h
  | some child =>
    simp only
    cases hwait : child.wait answer with
    | mk result waited =>
      cases result with
      | error err => exact agrees_of_child rfl
      | ok status => exact fun _ => unexpected_state { handle with child := none }.flushOutput status

/-- A stop by termination goes through `Absent` only where it began past `Starting`. -/
theorem terminated_agrees_iff (h : handle.Agrees) (hstop : handle.stop = .terminate) (stop : Stop) :
    (handle.shutdown stop).handle.Agrees ↔
      ∀ child, handle.child = some child → handle.stopLosesProcess child stop = false := by
  obtain ⟨id, state, child, drains, deadlines, _⟩ := handle
  cases hstop
  simp only [shutdown, beginStopping_eq, Return.andThen, stopLosesProcess]
  rcases terminate_cases stop.termination
      ⟨id, stoppingFrom state, child, drains, deadlines, .terminate⟩ with
    ⟨hr, hends⟩ | ⟨err, c, c', hc, hends, hr⟩
  · simp only [hr, settle_eq]
    cases child with
    | none => rcases h rfl with rfl | rfl <;> simp [Agrees, flushOutput, stoppingFrom]
    | some c =>
      have hended := hends c rfl
      cases state <;> simp [Agrees, flushOutput, stoppingFrom, hended]
  · cases hc
    simp [hr, Agrees, flushOutput, hends]

/-- The polite stop is followed by no transition where the process had to be killed. -/
theorem asked_agrees_iff (h : handle.Agrees) (hstop : handle.stop = .shutdownLine) (stop : Stop) :
    (handle.shutdown stop).handle.Agrees ↔
      ∀ child, handle.child = some child → handle.stopLosesProcess child stop = false := by
  obtain ⟨id, state, child, drains, deadlines, _⟩ := handle
  cases hstop
  cases child with
  | none =>
    rcases h rfl with rfl | rfl <;>
      simp [shutdown, beginStopping_eq, Return.andThen, Agrees, stoppingFrom]
  | some child =>
    simp only [shutdown, beginStopping_eq, Return.andThen, stopLosesProcess, Option.some.injEq,
      forall_eq']
    cases hwait : { child with stdin := false }.waitWithin stop.waited with
    | mk answer waited =>
      rcases answer with _ | err | status
      · simp only
        rcases terminate_cases stop.termination
            ⟨id, stoppingFrom state, some waited, drains, deadlines, .shutdownLine⟩ with
          ⟨hr, hends⟩ | ⟨err, c, c', hc, hends, hr⟩
        · have hended := hends waited rfl
          simp only [hr]
          cases state <;> simp [Agrees, flushOutput, stoppingFrom, hended]
        · cases hc
          simp [hr, Agrees, flushOutput, hends]
      · simp [Agrees]
      · cases state <;> simp [settle_eq, Agrees, flushOutput, stoppingFrom]

/-- A shutdown leaves no process behind a state that promises one, exactly where it is not
of the two kinds that do. -/
theorem agrees_shutdown_iff (h : handle.Agrees) (stop : Stop) :
    (handle.shutdown stop).handle.Agrees ↔
      ∀ child, handle.child = some child → handle.stopLosesProcess child stop = false := by
  cases hstop : handle.stop with
  | shutdownLine => exact asked_agrees_iff h hstop stop
  | terminate => exact terminated_agrees_iff h hstop stop

theorem agrees_perform_iff (h : handle.Agrees) (operation : Operation) :
    (handle.perform operation).Agrees ↔ handle.KeepsProcess operation := by
  cases operation with
  | waitReady turns elapsed t => exact iff_of_true (h.waitReady turns elapsed t) (by rintro _ _ ⟨⟩)
  | waitReadyWith rounds elapsed t =>
    exact iff_of_true (h.waitReadyWith rounds elapsed t) (by rintro _ _ ⟨⟩)
  | markReady => exact iff_of_true (h.mark (.inl rfl)) (by rintro _ _ ⟨⟩)
  | markFailed => exact iff_of_true (h.mark (.inr rfl)) (by rintro _ _ ⟨⟩)
  | wait answer => exact iff_of_true (h.wait answer) (by rintro _ _ ⟨⟩)
  | shutdown stop =>
    refine (agrees_shutdown_iff h stop).trans ⟨fun hkeeps s c hs hc => ?_, fun hkeeps c => hkeeps stop c rfl⟩
    cases hs
    exact hkeeps c hc

theorem agrees_of_spawn {spec : WorkerSpec} {pid : UInt32}
    (h : spawn spec (.ok pid) = .ok handle) : handle.Agrees := by
  cases h
  exact agrees_of_child rfl

/-- Where no shutdown ends the process of a worker that is `Starting`, or kills one that
outlived the deadline of its polite stop, a state that promises a process has one. Any
other shutdown breaks this. -/
theorem process_behind_state (hs : ReachableWhile workerSystem KeepsProcess handle) :
    (handle.child = none → handle.state = .absent ∨ handle.state = .failed) ∧
      ∀ operation, (handle.perform operation).Agrees ↔ handle.KeepsProcess operation := by
  have hagrees : handle.Agrees := by
    refine hs.invariant (fun h ⟨spec, pid, hspawn⟩ => agrees_of_spawn hspawn) ?_
    intro h h' operation _ hh hkeeps hst
    cases hst
    exact (agrees_perform_iff hh operation).mpr hkeeps
  exact ⟨hagrees, agrees_perform_iff hagrees⟩

def sampleSpec : WorkerSpec := ⟨1, "worker", [], .default, 100, .shutdownLine⟩

def sampleHandle : WorkerHandle := ⟨1, .starting, some ⟨7, true, none⟩, 2, .default, .shutdownLine⟩

def sampleTermination : Termination := ⟨.ok none, none, .ok (), .ok none, none⟩

def announces : Operation := .waitReady [(.ok none, [.line READY_MARKER])] 0 sampleTermination

def stopsAfter (waited : Option (Except IoError ExitStatus)) : Operation :=
  .shutdown ⟨waited, sampleTermination⟩

/-- A worker that stops when it is asked to. -/
theorem process_behind_state_stopped :
    ∃ h, workerSystem.run sampleHandle [announces, stopsAfter (some (.ok ⟨some 0⟩))] = some h ∧
      h.child = none ∧ (h.state = .absent ∨ h.state = .failed) := by
  refine ⟨_, rfl, rfl, (process_behind_state ?_).1 rfl⟩
  refine .step (.step (.init ⟨sampleSpec, 7, rfl⟩) ?_ rfl) ?_ rfl
  · rintro _ _ ⟨⟩
  · rintro _ _ ⟨⟩ ⟨⟩
    rfl

/-- The worker is ready, is asked to stop, outlives its deadline and is killed. -/
theorem process_gone_while_stopping :
    ¬ ∀ h, Reachable workerSystem h → h.child = none → h.state = .absent ∨ h.state = .failed := by
  intro hclaim
  obtain ⟨h, hrun, hchild, hstate⟩ :
      ∃ h, workerSystem.run sampleHandle [announces, stopsAfter none] = some h ∧
        h.child = none ∧ h.state = .stopping := ⟨_, rfl, rfl, rfl⟩
  have hs : Reachable workerSystem h := reachable_of_run (.init ⟨sampleSpec, 7, rfl⟩) hrun
  have hagrees := hclaim h hs hchild
  rw [hstate] at hagrees
  rcases hagrees with h | h <;> cases h

end WorkerHandle
end MehoyRuntime.Worker
