import MehoyRuntime.Lib.System
import MehoyRuntime.Worker.State
import MehoyRuntime.Stream.Wire

/-!
# Supervising a child process

One worker handle and the operations of its supervisor. What the operating system and
the process answer to each call is an argument of the operation, so the process may
exit at any time, ignore what it is asked and outlive its deadlines.
-/

namespace MehoyRuntime.Worker
open TransitionSystem

/-- The line a worker prints to announce readiness begins with this. -/
def READY_MARKER : String := "MEHOY-WORKER-READY"

structure ExitStatus where
  code : Option Int32
  deriving DecidableEq

/-- A child as its handle knows it: `exited` is the status once it has been collected. -/
structure Child where
  pid : UInt32
  stdin : Bool
  exited : Option ExitStatus
  deriving DecidableEq

namespace Child

def id (child : Child) : Option UInt32 := if child.exited.isSome then none else some child.pid

def tryWait (child : Child) (answer : Except IoError (Option ExitStatus)) :
    Except IoError (Option ExitStatus) × Child :=
  match child.exited, answer with
  | some status, _ => (.ok (some status), child)
  | none, .ok (some status) => (.ok (some status), { child with exited := some status })
  | none, answer => (answer, child)

/-- Waiting closes the child's standard input first. -/
def wait (child : Child) (answer : Except IoError ExitStatus) :
    Except IoError ExitStatus × Child :=
  match child.exited, answer with
  | some status, _ => (.ok status, { child with stdin := false })
  | none, .ok status => (.ok status, { child with stdin := false, exited := some status })
  | none, .error err => (.error err, { child with stdin := false })

/-- `timeout(budget, child.wait())`: without an answer the budget elapses, unless the status
is known already. -/
def waitWithin (child : Child) (answer : Option (Except IoError ExitStatus)) :
    Option (Except IoError ExitStatus) × Child :=
  match child.exited, answer with
  | none, none => (none, { child with stdin := false })
  | some status, none => (some (.ok status), { child with stdin := false })
  | _, some answer => ((child.wait answer).1, (child.wait answer).2)

end Child

structure WorkerHandle where
  id : UInt64
  state : WorkerState
  child : Option Child
  drains : ℕ
  deadlines : Deadlines
  stop : StopProtocol
  deriving DecidableEq

inductive ProbeOutcome
  | notYet
  | ready (ready : WorkerReady)
  deriving DecidableEq

/-- What the live feed of captured lines answers to one `try_recv`. -/
inductive TryRecv
  | line (text : String)
  | lagged
  | empty
  | closed
  deriving DecidableEq

/-- The probe of `wait_ready`: it reads what is buffered up to the first announcement. -/
def announced : List TryRecv → ProbeOutcome
  | [] | .empty :: _ | .closed :: _ => .notYet
  | .lagged :: rest => announced rest
  | .line text :: rest =>
    if READY_MARKER.toList.isPrefixOf (text.toList.dropWhile Stream.isWhiteSpace) then .ready ⟨text⟩
    else announced rest

/-- One turn of the loop that waits for readiness. -/
structure Round where
  tryWait : Except IoError (Option ExitStatus)
  probe : Except WorkerError ProbeOutcome
  deriving DecidableEq

/-- What happens while a worker is killed: `injected` is the refusal a test asked for, and
`waited` is `none` when the bounded wait after a refusal elapses. -/
structure Termination where
  tryWait : Except IoError (Option ExitStatus)
  injected : Option IoError
  startKill : Except IoError Unit
  tryWaitAgain : Except IoError (Option ExitStatus)
  waited : Option (Except IoError ExitStatus)

/-- What happens while a worker is asked to stop, and killed where it does not. -/
structure Stop where
  waited : Option (Except IoError ExitStatus)
  termination : Termination

def collected : Except IoError (Option ExitStatus) → Bool
  | .ok (some _) => true
  | _ => false

/-- The first half of `terminate`: whether the kill was refused, and the child after it. -/
def Termination.kill (t : Termination) (child : Child) : Option IoError × Child :=
  let (first, child) := child.tryWait t.tryWait
  if collected first then (none, child)
  else
    match t.injected, t.startKill with
    | some injected, _ => (some injected, child)
    | none, .ok () => (none, child)
    | none, .error err =>
      let (again, child) := child.tryWait t.tryWaitAgain
      if collected again then (none, child) else (some err, child)

/-- The process is gone at the end: the kill was not refused, or the process ended within
the deadline all the same. -/
def Termination.ends (t : Termination) (child : Child) : Bool :=
  match t.kill child with
  | (none, _) => true
  | (some _, child) =>
    match (child.waitWithin t.waited).1 with
    | some (.ok _) => true
    | _ => false

/-- What an operation returns, and the handle it leaves behind either way. -/
structure Return (α : Type) where
  result : Except WorkerError α
  handle : WorkerHandle

/-- What follows an operation under `?`. -/
def Return.andThen {α β : Type} (first : Return α) (next : α → WorkerHandle → Return β) : Return β :=
  match first.result with
  | .ok value => next value first.handle
  | .error err => ⟨.error err, first.handle⟩

namespace WorkerHandle

def pid (handle : WorkerHandle) : Option UInt32 := handle.child.bind Child.id

def moveTo (handle : WorkerHandle) (next : WorkerState) : Return Unit :=
  match handle.state.transitionTo next with
  | .ok state => ⟨.ok (), { handle with state }⟩
  | .error err => ⟨.error (.invalidState err), handle⟩

def markFailed (handle : WorkerHandle) : Return Unit :=
  handle.moveTo .failed

def markReady (handle : WorkerHandle) : Return Unit :=
  handle.moveTo .ready

def flushOutput (handle : WorkerHandle) : WorkerHandle := { handle with drains := 0 }

def terminate (t : Termination) (handle : WorkerHandle) : Return Unit :=
  match handle.child with
  | none => ⟨.ok (), handle.flushOutput⟩
  | some child =>
    match t.kill child with
    | (none, _) => ⟨.ok (), { handle with child := none }.flushOutput⟩
    | (some err, child) =>
      match child.waitWithin t.waited with
      | (some (.ok _), _) => ⟨.ok (), { handle with child := none }.flushOutput⟩
      | (_, child) => ⟨.error (.io err), { handle with child := some child }.flushOutput⟩

/-- The loop inside the startup deadline, which passes when the turns run out. -/
def watch (child : Child) : List Round → Option (Except WorkerError WorkerReady) × Child
  | [] => (none, child)
  | round :: rest =>
    match child.tryWait round.tryWait with
    | (.error err, child) => (some (.error (.io err)), child)
    | (.ok (some status), child) => (some (.error (.exitedDuringStartup status.code)), child)
    | (.ok none, child) =>
      match round.probe with
      | .error err => (some (.error err), child)
      | .ok (.ready ready) => (some (.ok ready), child)
      | .ok .notYet => watch child rest

/-- What follows the startup deadline or its outcome: a worker that never became ready is
not left running. -/
def started (outcome : Option (Except WorkerError WorkerReady)) (elapsed : ℕ) (t : Termination)
    (handle : WorkerHandle) : Return WorkerReady :=
  match outcome with
  | some (.ok ready) => (handle.moveTo .ready).andThen fun _ handle => ⟨.ok ready, handle⟩
  | some (.error err) => (handle.moveTo .failed).andThen fun _ handle => ⟨.error err, handle⟩
  | none => (handle.moveTo .failed).andThen fun _ handle =>
      ⟨.error (.startupTimeout (max elapsed handle.deadlines.startup)), (handle.terminate t).handle⟩

def waitReadyWith (rounds : List Round) (elapsed : ℕ) (t : Termination) (handle : WorkerHandle) :
    Return WorkerReady :=
  match handle.child with
  | none => ⟨.error (.io "worker has no process"), handle⟩
  | some child =>
    { handle with child := some (watch child rounds).2 }.started (watch child rounds).1 elapsed t

def waitReady (turns : List (Except IoError (Option ExitStatus) × List TryRecv)) (elapsed : ℕ)
    (t : Termination) (handle : WorkerHandle) : Return WorkerReady :=
  handle.waitReadyWith (turns.map fun turn => ⟨turn.1, .ok (announced turn.2)⟩) elapsed t

/-- The end of both protocols: a worker that was `Stopping` is `Absent`, any other keeps
its state. -/
def settle (handle : WorkerHandle) : Return Unit :=
  if handle.state = .stopping then handle.moveTo .absent else ⟨.ok (), handle⟩

/-- The first lines of `shutdown`: a worker that is `Ready` goes through `Draining`. -/
def beginStopping (handle : WorkerHandle) : Return Unit :=
  (if handle.state = .ready then handle.moveTo .draining else ⟨.ok (), handle⟩).andThen fun _ handle =>
    if handle.state = .draining then handle.moveTo .stopping else ⟨.ok (), handle⟩

def shutdown (stop : Stop) (handle : WorkerHandle) : Return WorkerExit :=
  handle.beginStopping.andThen fun _ handle =>
  match handle.stop with
  | .terminate =>
    (handle.terminate stop.termination).andThen fun _ handle =>
    handle.settle.andThen fun _ handle => ⟨.ok ⟨.requested⟩, handle⟩
  | .shutdownLine =>
    match handle.child with
    | none => ⟨.ok ⟨.requested⟩, handle⟩
    | some child =>
      match { child with stdin := false }.waitWithin stop.waited with
      | (some (.ok _), _) =>
        { handle with child := none }.flushOutput.settle.andThen fun _ handle =>
          ⟨.ok ⟨.requested⟩, handle⟩
      | (some (.error err), child) => ⟨.error (.io err), { handle with child := some child }⟩
      | (none, child) =>
        ({ handle with child := some child }.terminate stop.termination).andThen fun _ handle =>
          ⟨.error (.shutdownTimeout handle.deadlines.shutdown), handle⟩

/-- The end of `wait`: an exit that was not requested is a failure where the state has one. -/
def unexpectedExit (handle : WorkerHandle) (status : ExitStatus) : Return WorkerExit :=
  (if handle.state.canTransitionTo .failed then handle.moveTo .failed else ⟨.ok (), handle⟩).andThen
    fun _ handle => ⟨.ok ⟨.unexpected status.code⟩, handle⟩

def wait (answer : Except IoError ExitStatus) (handle : WorkerHandle) : Return WorkerExit :=
  match handle.child with
  | none => ⟨.ok ⟨.requested⟩, handle⟩
  | some child =>
    match child.wait answer with
    | (.ok status, _) => { handle with child := none }.flushOutput.unexpectedExit status
    | (.error err, child) => ⟨.error (.io err), { handle with child := some child }⟩

end WorkerHandle

def spawn (spec : WorkerSpec) (spawned : Except IoError UInt32) : Except WorkerError WorkerHandle :=
  match WorkerState.absent.transitionTo .starting with
  | .error err => .error (.invalidState err)
  | .ok state =>
    match spawned with
    | .error source => .error (.spawn spec.program source)
    | .ok pid => .ok ⟨spec.id, state, some ⟨pid, true, none⟩, 2, spec.deadlines, spec.stop⟩

inductive Operation
  | waitReady (turns : List (Except IoError (Option ExitStatus) × List TryRecv)) (elapsed : ℕ)
      (termination : Termination)
  | waitReadyWith (rounds : List Round) (elapsed : ℕ) (termination : Termination)
  | markReady
  | markFailed
  | shutdown (stop : Stop)
  | wait (answer : Except IoError ExitStatus)

def WorkerHandle.perform (handle : WorkerHandle) : Operation → WorkerHandle
  | .waitReady turns elapsed t => (handle.waitReady turns elapsed t).handle
  | .waitReadyWith rounds elapsed t => (handle.waitReadyWith rounds elapsed t).handle
  | .markReady => handle.markReady.handle
  | .markFailed => handle.markFailed.handle
  | .shutdown stop => (handle.shutdown stop).handle
  | .wait answer => (handle.wait answer).handle

/-- The operations on one handle, each run to its return. -/
def workerSystem : System WorkerHandle Operation where
  init handle := ∃ spec pid, spawn spec (.ok pid) = .ok handle
  step handle operation := some (handle.perform operation)

end MehoyRuntime.Worker
