import Mathlib.Algebra.Group.Nat.Defs
import MehoyRuntime.Lib.Table
import MehoyRuntime.Runtime.Request

/-!
# A running instance

`LoadedModel` with everything that can happen to it: admission, requests, cancellation
by identifier and unloading. A section under the lifecycle lock is one step, and so is
each operation on a handle. A request is named by the position at which it was admitted,
which is what the handles in the `active` table stand for.
-/

namespace MehoyRuntime.Runtime
open MehoyRuntime.Core MehoyRuntime.Stream TransitionSystem KeyedTable

/-- Everything an instance's lifetime turns on, under one lock. `worker` says whether the
worker is still there to be taken. -/
structure Lifecycle where
  phase : LifecyclePhase
  active : Table RequestId ℕ
  worker : Bool

inductive CancelCall
  | found (request : ℕ)
  | requesting (request : ℕ)
  | refused (request : ℕ)
  | stopping (request : ℕ)
  | returned (result : Except CancelError CancelOutcome)
  deriving DecidableEq

inductive UnloadPc
  | missing
  | cancelling (rest : List ℕ)
  | counting (deadline : ℕ) (rest : List ℕ) (unsettled : ℕ)
  | sleeping (deadline : ℕ)
  | drained (unsettled : ℕ)
  | stopping (unsettled : ℕ)
  | finishing (stopped : Except BackendError Unit) (unsettled : ℕ)
  | returned (result : Except LoadError UnloadOutcome)
  | dropped
  | panicked
  deriving DecidableEq

/-- A call of `unload_within`, from the end of its first locked section on. Durations and
instants are in nanoseconds. -/
structure UnloadCall where
  drain : ℕ
  outstanding : List ℕ
  pc : UnloadPc
  deriving DecidableEq

def UnloadCall.executing (call : UnloadCall) : Bool :=
  match call.pc with
  | .returned _ | .dropped | .panicked => false
  | _ => true

/-- The latest instant a deadline can be: the seconds are a signed 64-bit number. -/
def maxInstant : ℕ := (2 ^ 63 - 1) * 10 ^ 9 + 999999999

/-- `Instant + Duration`, which panics where there is no such instant. -/
def instantAdd (now duration : ℕ) : Option ℕ :=
  if now + duration ≤ maxInstant then some (now + duration) else none

namespace LoadedModel

structure State where
  id : InstanceId
  state : InstanceState
  identity : Option BackendIdentity
  capabilities : ModelCapabilities
  requests : IdAllocator
  lifecycle : Lifecycle
  admitted : List Request
  refused : List LoadError
  cancels : List CancelCall
  unloads : List UnloadCall
  stopCalls : ℕ
  stopResults : List (Except BackendError Unit)

def new (id : InstanceId) (identity : Option BackendIdentity) (capabilities : ModelCapabilities) :
    State where
  id := id
  state := .backendReady
  identity := identity
  capabilities := capabilities
  requests := .new
  lifecycle := ⟨.serving, ∅, true⟩
  admitted := []
  refused := []
  cancels := []
  unloads := []
  stopCalls := 0
  stopResults := []

namespace State

def terminalAt (s : State) (i : ℕ) : Bool := (s.admitted[i]?).elim true Request.isTerminal

def phase (s : State) : LifecyclePhase := s.lifecycle.phase

def active (s : State) : Table RequestId ℕ := s.lifecycle.active

def retained (s : State) : Table RequestId ℕ := retain (fun _ i => !s.terminalAt i) s.active

/-- `retain` as `cancel`, `active_requests` and `admitRequest` do it. -/
def prune (s : State) : State := { s with lifecycle := { s.lifecycle with active := s.retained } }

/-- `admit`: admits one request, or refuses it. -/
def admitRequest (s : State) (request : RequestHandle → Request) : Except LoadError State :=
  -- Checked under the lock under which an unload closes admission.
  if s.phase ≠ .serving then .error (.notUsable s.phase.display)
  else if !s.state.isUsable then .error (.notUsable s.state.display)
  else
    let handle := RequestHandle.new s.requests.request.1
    .ok { s with
      requests := s.requests.request.2
      admitted := s.admitted ++ [request handle]
      lifecycle := { s.lifecycle with active := s.retained.insert handle.id s.admitted.length } }

/-- A task class after its own check of the request: refused, or admitted. -/
def begin (s : State) (valid : Except LoadError Unit) (request : RequestHandle → Request) : State :=
  match valid with
  | .error err => { s with refused := s.refused ++ [err] }
  | .ok () =>
    match s.admitRequest request with
    | .error err => { s with refused := s.refused ++ [err] }
    | .ok s' => s'

def wholeRequest (request : WholeRequest) (verify : Bool) (handle : RequestHandle) : Request :=
  .whole ⟨request, verify, handle, none, .admitted⟩

def validParameters (request : GenerateTextRequest) : Except LoadError Unit :=
  match request.parameters.validate with
  | .error invalid => .error (.invalidRequest invalid.display)
  | .ok () => .ok ()

/-- `embed`, or `verify_embeddings`, up to the select. -/
def embed (s : State) (request : EmbedRequest) (verify : Bool) : State :=
  s.begin (.ok ()) (wholeRequest (.embed request) verify)

/-- `generate_text`, or `verify_text_generation`, up to the select. -/
def generateText (s : State) (request : GenerateTextRequest) (verify : Bool) : State :=
  s.begin (validParameters request) (wholeRequest (.generateText request) verify)

/-- `generate_stream_within` up to the start of the task. `body` is the encoded request. -/
def generateStream (s : State) (request : GenerateTextRequest)
    (body : Except String (List UInt8)) : State :=
  s.begin (validParameters request) fun handle => .accepted handle body

def verify (s : State) (capability : ModelCapability) (now : ℕ) : State :=
  { s with capabilities := s.capabilities.verify capability now s.identity }

def stepRequest (ext : Externals) (s : State) (i : ℕ) (a : RequestAction) : Option State :=
  (s.admitted[i]?).bind fun r =>
    (r.step ext (0 < s.stopCalls) a).map fun r' => { s with admitted := s.admitted.set i r' }

/-- The end of `verify_embeddings` and `verify_text_generation`: the request at `i` had
its result accepted, which demonstrates the capability. -/
def recordVerified (s : State) (i : ℕ) (now : ℕ) : Option State :=
  match s.admitted[i]? with
  | some (.whole w) =>
    match w.pc with
    | .verifying result =>
      some ({ s with admitted := s.admitted.set i (.whole { w with pc := .returned (.ok result) }) }.verify
        w.request.capability now)
    | _ => none
  | _ => none

/-- `record_generation_stream`, told what the stream demonstrated. -/
def recordGenerationStream (s : State) (demonstrated : Bool) (now : ℕ) : State :=
  if demonstrated then s.verify .textGeneration now else s

def onHandle (s : State) (i : ℕ) (f : RequestHandle → RequestHandle) : State :=
  match s.admitted[i]? with
  | some r => { s with admitted := s.admitted.set i (r.withHandle (f r.handle)) }
  | none => s

def tell (s : State) (i : ℕ) (cause : CancellationCause) : State :=
  s.onHandle i fun h => (h.requestCancellation cause).2

/-- `cancel`: the section under the lock. -/
def cancel (s : State) (requestId : RequestId) : State :=
  let s' := s.prune
  match s'.active.lookup requestId with
  | none => { s' with cancels := s'.cancels ++ [.returned (.error (.unknown requestId))] }
  | some i => { s' with cancels := s'.cancels ++ [.found i] }

/-- The rest of `cancel`, one operation on the handle at a time. -/
def cancelNext (s : State) : CancelCall → Option (State × CancelCall)
  | .found i =>
    (s.admitted[i]?).map fun r =>
      if r.isTerminal then (s, .returned (.ok (.alreadyFinished r.handle.state)))
      else (s, .requesting i)
  | .requesting i =>
    (s.admitted[i]?).map fun r =>
      (s.tell i .user,
        if (r.handle.requestCancellation .user).1 then .returned (.ok .requested) else .refused i)
  | .refused i =>
    (s.admitted[i]?).map fun r =>
      if r.isTerminal then (s, .returned (.ok (.alreadyFinished r.handle.state)))
      else (s, .stopping i)
  | .stopping i =>
    (s.admitted[i]?).map fun r =>
      (s, .returned (.ok (.alreadyStopping (r.handle.cancellationCause.getD .user))))
  | .returned _ => none

def stepCancel (s : State) (k : ℕ) : Option State :=
  (s.cancels[k]?).bind fun call =>
    (s.cancelNext call).map fun r => { r.1 with cancels := r.1.cancels.set k r.2 }

def activeRequests (s : State) : ℕ := len s.retained

def requestState (s : State) (requestId : RequestId) : Option RequestState :=
  (s.active.lookup requestId).bind fun i => (s.admitted[i]?).map fun r => r.handle.state

end State

/-- The steps of an unload call after its first section. Instants are read where the
source reads the clock. -/
inductive UnloadAction
  | tell
  | setDeadline (now : ℕ)
  | count
  | decide (now : ℕ)
  | wake
  | callStop
  | stopped (result : Except BackendError Unit)
  | finish
  deriving DecidableEq

namespace State

def pushUnload (s : State) (call : UnloadCall) : State := { s with unloads := s.unloads ++ [call] }

/-- What a call that finds the instance serving takes with it: the requests still to be
ended, and the worker, which is there. -/
def closingCall (s : State) (drain : ℕ) : UnloadCall :=
  let outstanding := (values s.active).filter fun i => !s.terminalAt i
  ⟨drain, outstanding, if s.lifecycle.worker then .cancelling outstanding else .missing⟩

def endedCall (drain : ℕ) (outcome : UnloadOutcome) : UnloadCall :=
  ⟨drain, [], .returned (.ok outcome)⟩

/-- `unload_within`, phase one: closes admission and takes what has to be cleaned up. -/
def beginUnload (s : State) (drain : ℕ) : State :=
  match s.phase with
  | .unloading => s.pushUnload (endedCall drain .alreadyUnloading)
  | .unloaded => s.pushUnload (endedCall drain .alreadyUnloaded)
  | .unloadFailed => s.pushUnload (endedCall drain .alreadyFailed)
  | .serving =>
    -- The phase is set and the worker taken out before the first await.
    { s with lifecycle := ⟨.unloading, s.active, false⟩ }.pushUnload (s.closingCall drain)

/-- `finish`: the phase is recorded and the table cleared. -/
def finish (s : State) (phase : LifecyclePhase) : State :=
  { s with lifecycle := { s.lifecycle with phase := phase, active := ∅ } }

def unloadResult (call : UnloadCall) (stopped : Except BackendError Unit) (unsettled : ℕ) :
    Except LoadError UnloadOutcome :=
  match stopped with
  | .error err => .error (.backend err)
  | .ok () =>
    if unsettled = 0 then .ok (.drained call.outstanding.length)
    else .ok (.escalated call.outstanding.length unsettled)

def phaseFor (stopped : Except BackendError Unit) : LifecyclePhase :=
  match stopped with
  | .ok () => .unloaded
  | .error _ => .unloadFailed

def unloadNext (s : State) (call : UnloadCall) : UnloadPc → UnloadAction → Option (State × UnloadPc)
  -- Unreachable, as the source says: a serving instance holds its worker.
  | .missing, .finish => some (s.finish .unloadFailed, .returned (.ok .alreadyFailed))
  | .cancelling (i :: rest), .tell => some (s.tell i .instanceUnloading, .cancelling rest)
  | .cancelling [], .setDeadline now =>
    match instantAdd now call.drain with
    | some deadline => some (s, .counting deadline call.outstanding 0)
    | none => some (s, .panicked)
  | .counting deadline (i :: rest) unsettled, .count =>
    some (s, .counting deadline rest (if s.terminalAt i then unsettled else unsettled + 1))
  | .counting deadline [] unsettled, .decide now =>
    if unsettled = 0 then some (s, .drained 0)
    else if deadline ≤ now then some (s, .drained unsettled)
    else some (s, .sleeping deadline)
  -- Each round looks at every outstanding handle again.
  | .sleeping deadline, .wake => some (s, .counting deadline call.outstanding 0)
  | .drained unsettled, .callStop =>
    some ({ s with stopCalls := s.stopCalls + 1 }, .stopping unsettled)
  | .stopping unsettled, .stopped result =>
    some ({ s with stopResults := s.stopResults ++ [result] }, .finishing result unsettled)
  | .finishing result unsettled, .finish =>
    some (s.finish (phaseFor result), .returned (unloadResult call result unsettled))
  | _, _ => none

def setUnload (s : State) (k : ℕ) (call : UnloadCall) : State :=
  { s with unloads := s.unloads.set k call }

def stepUnload (s : State) (k : ℕ) (a : UnloadAction) : Option State :=
  (s.unloads[k]?).bind fun call =>
    (s.unloadNext call call.pc a).map fun r => r.1.setUnload k { call with pc := r.2 }

/-- The call's future is dropped at one of its two awaits. -/
def dropUnload (s : State) (k : ℕ) : Option State :=
  (s.unloads[k]?).bind fun call =>
    match call.pc with
    | .sleeping _ | .stopping _ => some (s.setUnload k { call with pc := .dropped })
    | _ => none

end State

inductive Action
  | embed (request : EmbedRequest) (verify : Bool)
  | generateText (request : GenerateTextRequest) (verify : Bool)
  | generateStream (request : GenerateTextRequest) (body : Except String (List UInt8))
  | request (i : ℕ) (action : RequestAction)
  | recordVerified (i : ℕ) (now : ℕ)
  | recordGenerationStream (demonstrated : Bool) (now : ℕ)
  | cancel (requestId : RequestId)
  | stepCancel (call : ℕ)
  | activeRequests
  | beginUnload (drain : ℕ)
  | stepUnload (call : ℕ) (action : UnloadAction)
  | dropUnload (call : ℕ)

def step (ext : Externals) (s : State) : Action → Option State
  | .embed request verify => some (s.embed request verify)
  | .generateText request verify => some (s.generateText request verify)
  | .generateStream request body => some (s.generateStream request body)
  | .request i action => s.stepRequest ext i action
  | .recordVerified i now => s.recordVerified i now
  | .recordGenerationStream demonstrated now => some (s.recordGenerationStream demonstrated now)
  | .cancel requestId => some (s.cancel requestId)
  | .stepCancel call => s.stepCancel call
  | .activeRequests => some s.prune
  | .beginUnload drain => some (s.beginUnload drain)
  | .stepUnload call action => s.stepUnload call action
  | .dropUnload call => s.dropUnload call

def system (ext : Externals) : System State Action where
  init s := ∃ id identity capabilities, s = new id identity capabilities
  step := step ext

end LoadedModel
end MehoyRuntime.Runtime
