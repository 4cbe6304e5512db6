import Mathlib.Algebra.Group.Nat.Defs
import Mathlib.Data.List.Basic

/-!
# The worker state machine

Where a supervised worker is in its life, the transitions the machine allows, and what
the supervisor is told about a worker: its deadlines and how it is asked to stop.
Durations are in nanoseconds.
-/

namespace MehoyRuntime.Worker

inductive WorkerState
  | absent
  | starting
  | ready
  | draining
  | stopping
  | failed
  deriving DecidableEq, Repr

structure WorkerStateError where
  fromState : WorkerState
  toState : WorkerState
  deriving DecidableEq, Repr

namespace WorkerState

def asStr : WorkerState → String
  | .absent => "absent"
  | .starting => "starting"
  | .ready => "ready"
  | .draining => "draining"
  | .stopping => "stopping"
  | .failed => "failed"

def isUsable : WorkerState → Bool
  | .ready => true
  | _ => false

def isTerminal : WorkerState → Bool
  | .failed => true
  | _ => false

def canTransitionTo : WorkerState → WorkerState → Bool
  | .absent, .starting
  | .starting, .ready | .starting, .failed
  | .ready, .draining | .ready, .failed
  | .draining, .stopping | .draining, .failed
  | .stopping, .absent | .stopping, .failed => true
  | _, _ => false

def transitionTo (state next : WorkerState) : Except WorkerStateError WorkerState :=
  if state.canTransitionTo next then .ok next else .error ⟨state, next⟩

end WorkerState

def WorkerStateError.display (err : WorkerStateError) : String :=
  s!"a worker cannot go from {err.fromState.asStr} to {err.toState.asStr}"

abbrev IoError := String

inductive WorkerError
  | spawn (program : String) (source : IoError)
  | startupTimeout (waited : ℕ)
  | exitedDuringStartup (code : Option Int32)
  | shutdownTimeout (waited : ℕ)
  | invalidState (err : WorkerStateError)
  | io (err : IoError)
  deriving DecidableEq

/-- `seconds` is how a duration in nanoseconds reads as a 32-bit float of seconds. -/
def WorkerError.display (seconds : ℕ → String) : WorkerError → String
  | .spawn program source => s!"cannot start worker {program}: {source}"
  | .startupTimeout waited => s!"worker did not become ready within {seconds waited}s"
  | .exitedDuringStartup code =>
    "worker exited before becoming ready (status " ++ code.elim "unknown" toString ++ ")"
  | .shutdownTimeout waited => s!"worker ignored shutdown for {seconds waited}s and was terminated"
  | .invalidState err => err.display
  | .io err => s!"worker supervision failure: {err}"

inductive StopProtocol
  | shutdownLine
  | terminate
  deriving DecidableEq, Repr

structure Deadlines where
  startup : ℕ
  shutdown : ℕ
  health : ℕ
  deriving DecidableEq, Repr

def Deadlines.default : Deadlines := ⟨30 * 10 ^ 9, 10 * 10 ^ 9, 5 * 10 ^ 9⟩

structure WorkerSpec where
  id : UInt64
  program : String
  args : List String
  deadlines : Deadlines
  captureLines : ℕ
  stop : StopProtocol
  deriving DecidableEq

structure WorkerReady where
  announcement : String
  deriving DecidableEq, Repr

inductive ExitCause
  | requested
  | unexpected (code : Option Int32)
  | startupTimeout
  | killed
  deriving DecidableEq

structure WorkerExit where
  cause : ExitCause
  deriving DecidableEq

end MehoyRuntime.Worker
