import Mathlib.Data.List.Infix
import MehoyRuntime.Runtime.Ledger
import MehoyRuntime.Runtime.LoadedModel

/-!
# One load

`Runtime::load` with `ModelLoader::load` and the start of the backend inside it, as far
as they touch neither the ledger nor the models. Between two awaits a load runs in steps
of its own; what the registry, the disk, the process and the backend answer is part of
the labels.
-/

namespace MehoyRuntime.Runtime
open MehoyRuntime.Core

structure ModelArtifact where
  path : String
  sizeBytes : UInt64
  architecture : Option String
  embeddingLength : Option UInt64
  hasChatTemplate : Bool
  deriving DecidableEq, Repr

inductive ArtifactState
  | unchanged
  | missing
  | changed (reason : String)
  deriving DecidableEq, Repr

def declaredFootprint (id : String) (found : Except String (Option ModelArtifact)) :
    Except LoadError ResourceFootprint :=
  match found with
  | .error detail => .error (.registry detail)
  | .ok none => .error (.unknownArtifact id)
  | .ok (some record) => .ok (.fromContainerSize record.sizeBytes)

def resolve (id : String) (found : Except String (Option ModelArtifact))
    (drift : ArtifactState) : Except LoadError ModelArtifact :=
  match found with
  | .error detail => .error (.registry detail)
  | .ok none => .error (.unknownArtifact id)
  | .ok (some artifact) =>
    match drift with
    | .unchanged => .ok artifact
    | .missing => .error (.artifactMissing id artifact.path)
    | .changed reason => .error (.artifactChanged id reason)

def indicatedByMetadata (architecture : Option String) (embeddingLength : Option UInt64)
    (hasChatTemplate : Bool) : ModelCapabilities
  | .textGeneration => if hasChatTemplate then .indicated .metadata else .unknown
  | .embeddings =>
    if architecture.any (fun a => a.toList.tails.any ("bert".toList.isPrefixOf ·)) &&
        embeddingLength.isSome then .indicated .metadata
    else .unknown
  | _ => .unknown

def describeLeak (failure : Except String Unit) : String :=
  match failure with
  | .ok () => ""
  | .error err => s!"; the worker could not be stopped and may still be running: {err}"

def describeRollback (reason : String) (stopped : Except String Unit) : String :=
  match stopped with
  | .ok () => reason
  | .error err =>
    s!"{reason}; the backend could not be stopped afterwards and may still be running: {err}"

inductive Readiness
  | ready
  | failed (source : String)
  | elapsed (source : String)
  deriving DecidableEq, Repr

inductive CredentialState
  | accepted
  | refused (status : ℕ)
  | unconfirmed (err : String)
  deriving DecidableEq, Repr

inductive LoadPc
  | sizing
  | reserving (footprint : ResourceFootprint)
  | preparing
  | identifying
  | spawning
  | waitingReady
  | terminating (source : String)
  | flushing (source : String)
  | probing
  | refusing (detail : String)
  | committing
  | rollingBack (reason : String)
  | fulfilling (model : ℕ)
  | rejected (reason : String) (model : ℕ)
  | tearing (reason : String) (model call : ℕ)
  | releasing (result : Option RuntimeError)
  | returned (result : Except RuntimeError InstanceId)
  | dropped
  | panicked
  deriving DecidableEq

/-- A call of `load`. `reserved` is its guard while the guard would give the claim back;
`stopFailed` says that an attempt of the call to stop its worker returned an error, and
`built` is the model that was committed around the worker. -/
structure LoadCall where
  artifact : String
  footprint : Option ResourceFootprint
  reserved : Option Claim
  record : Option ModelArtifact
  identity : Option BackendIdentity
  stopFailed : Bool
  built : Option ℕ
  pc : LoadPc

inductive LoadAction
  | size (found : Except String (Option ModelArtifact))
  | reserve
  | prepare (found : Except String (Option ModelArtifact)) (drift : ArtifactState)
      (incompatible : Option String)
  | identified (identity : Option BackendIdentity) (channel : Except String Unit)
  | spawned (outcome : Except String Unit)
  | waited (outcome : Readiness)
  | terminated (result : Except String Unit)
  | flushed (output : String)
  | probed (outcome : CredentialState)
  | shutdown (result : Except String Unit)
  | commit (outcome : Except String (List UInt8))
  | fulfil
  | beginTeardown
  | torn
  | release
  | drop
  deriving DecidableEq

namespace LoadCall

def new (artifact : String) : LoadCall where
  artifact := artifact
  footprint := none
  reserved := none
  record := none
  identity := none
  stopFailed := false
  built := none
  pc := .sizing

def goto (call : LoadCall) (pc : LoadPc) : LoadCall := { call with pc := pc }

def admitted (call : LoadCall) (claim : Claim) : LoadCall := { call with reserved := some claim }

/-- Nothing is given back any more when the guard is dropped. -/
def settled (call : LoadCall) : LoadCall := { call with reserved := none }

/-- The load ends in an error: the guard is dropped next. -/
def fail (call : LoadCall) (err : LoadError) : LoadCall :=
  call.goto (.releasing (some (.instance_ err)))

def attempted (call : LoadCall) (result : Except String Unit) : LoadCall :=
  match result with
  | .ok () => call
  | .error _ => { call with stopFailed := true }

/-- The points where a load whose future is dropped can be suspended, or not yet polled. -/
def suspended (call : LoadCall) : Bool :=
  match call.pc with
  | .sizing | .identifying | .waitingReady | .terminating _ | .flushing _ | .probing
  | .refusing _ | .rollingBack _ => true
  | _ => false

def build (call : LoadCall) (bytes : List UInt8) : LoadedModel.State :=
  LoadedModel.new (.generate bytes) call.identity
    (indicatedByMetadata (call.record.bind (·.architecture)) (call.record.bind (·.embeddingLength))
      (call.record.any (·.hasChatTemplate)))

/-- The steps of a load that touch neither the ledger nor the models. -/
def next (call : LoadCall) : LoadPc → LoadAction → Option LoadCall
  | .sizing, .size found =>
    match declaredFootprint call.artifact found with
    | .error err => some (call.goto (.returned (.error (.instance_ err))))
    | .ok footprint => some ({ call with footprint := some footprint }.goto (.reserving footprint))
  | .preparing, .prepare found drift incompatible =>
    match resolve call.artifact found drift with
    | .error err => some (call.fail err)
    | .ok artifact =>
      match incompatible with
      | some reason => some (call.fail (.incompatible reason))
      | none => some ({ call with record := some artifact }.goto .identifying)
  | .identifying, .identified identity (.error detail) =>
    some ({ call with identity := identity }.fail (.backend (.channel detail)))
  | .identifying, .identified identity (.ok ()) =>
    some ({ call with identity := identity }.goto .spawning)
  | .spawning, .spawned (.error source) =>
    some (call.fail (.backend (.worker source call.identity "")))
  | .spawning, .spawned (.ok ()) => some (call.goto .waitingReady)
  | .waitingReady, .waited .ready => some (call.goto .probing)
  | .waitingReady, .waited (.failed source) => some (call.goto (.flushing source))
  -- Only a worker that outlives its deadline is terminated here, and what came of that is
  -- discarded; the other failures leave its handle to be dropped.
  | .waitingReady, .waited (.elapsed source) => some (call.goto (.terminating source))
  | .terminating source, .terminated result =>
    some ((call.attempted result).goto (.flushing source))
  | .flushing source, .flushed output =>
    some (call.fail (.backend (.worker source call.identity output)))
  | .probing, .probed .accepted => some (call.goto .committing)
  | .probing, .probed (.refused status) =>
    some (call.goto (.refusing
      s!"the backend refused the runtime's own credential with status {status}; it is serving but unusable"))
  | .probing, .probed (.unconfirmed err) =>
    some (call.goto (.refusing s!"cannot confirm the backend accepts its credential: {err}"))
  | .refusing detail, .shutdown result =>
    some ((call.attempted result).fail (.backend (.rejected (detail ++ describeLeak result))))
  | .committing, .commit (.error reason) => some (call.goto (.rollingBack reason))
  | .rollingBack reason, .shutdown result =>
    some ((call.attempted result).fail (.instance_ (describeRollback reason result)))
  | _, .drop => if call.suspended then some (call.goto (.releasing none)) else none
  | _, _ => none

inductive Next (call : LoadCall) : LoadAction → LoadCall → Prop
  | unsized {found err} (hpc : call.pc = .sizing)
      (herr : declaredFootprint call.artifact found = .error err) :
      Next call (.size found) (call.goto (.returned (.error (.instance_ err))))
  | sized {found footprint} (hpc : call.pc = .sizing)
      (hsize : declaredFootprint call.artifact found = .ok footprint) :
      Next call (.size found)
        ({ call with footprint := some footprint }.goto (.reserving footprint))
  | unresolved {found drift incompatible err} (hpc : call.pc = .preparing)
      (herr : resolve call.artifact found drift = .error err) :
      Next call (.prepare found drift incompatible) (call.fail err)
  | incompatible {found drift reason artifact} (hpc : call.pc = .preparing)
      (hresolve : resolve call.artifact found drift = .ok artifact) :
      Next call (.prepare found drift (some reason)) (call.fail (.incompatible reason))
  | prepared {found drift artifact} (hpc : call.pc = .preparing)
      (hresolve : resolve call.artifact found drift = .ok artifact) :
      Next call (.prepare found drift none) ({ call with record := some artifact }.goto .identifying)
  | unreachable {identity detail} (hpc : call.pc = .identifying) :
      Next call (.identified identity (.error detail))
        ({ call with identity := identity }.fail (.backend (.channel detail)))
  | identified {identity} (hpc : call.pc = .identifying) :
      Next call (.identified identity (.ok ())) ({ call with identity := identity }.goto .spawning)
  | unspawned {source} (hpc : call.pc = .spawning) :
      Next call (.spawned (.error source)) (call.fail (.backend (.worker source call.identity "")))
  | spawned (hpc : call.pc = .spawning) : Next call (.spawned (.ok ())) (call.goto .waitingReady)
  | ready (hpc : call.pc = .waitingReady) : Next call (.waited .ready) (call.goto .probing)
  | unready {source} (hpc : call.pc = .waitingReady) :
      Next call (.waited (.failed source)) (call.goto (.flushing source))
  | elapsed {source} (hpc : call.pc = .waitingReady) :
      Next call (.waited (.elapsed source)) (call.goto (.terminating source))
  | terminated {source result} (hpc : call.pc = .terminating source) :
      Next call (.terminated result) ((call.attempted result).goto (.flushing source))
  | flushed {source output} (hpc : call.pc = .flushing source) :
      Next call (.flushed output) (call.fail (.backend (.worker source call.identity output)))
  | accepted (hpc : call.pc = .probing) : Next call (.probed .accepted) (call.goto .committing)
  | refused {outcome detail} (hpc : call.pc = .probing) :
      Next call (.probed outcome) (call.goto (.refusing detail))
  | shutDown {detail result} (hpc : call.pc = .refusing detail) :
      Next call (.shutdown result)
        ((call.attempted result).fail (.backend (.rejected (detail ++ describeLeak result))))
  | uncommitted {reason} (hpc : call.pc = .committing) :
      Next call (.commit (.error reason)) (call.goto (.rollingBack reason))
  | rolledBack {reason result} (hpc : call.pc = .rollingBack reason) :
      Next call (.shutdown result)
        ((call.attempted result).fail (.instance_ (describeRollback reason result)))
  | dropped (hsuspended : call.suspended = true) : Next call .drop (call.goto (.releasing none))

theorem next_cases {call call' : LoadCall} {a : LoadAction}
    (h : call.next call.pc a = some call') : Next call a call' := by
  unfold next at h
  split at h
  case h_1 hpc =>
    split at h <;> cases h
    · rename_i herr
      exact .unsized hpc herr
    · rename_i hsize
      exact .sized hpc hsize
  case h_2 hpc =>
    split at h
    · rename_i herr
      cases h
      exact .unresolved hpc herr
    · rename_i hresolve
      split at h <;> cases h
      · exact .incompatible hpc hresolve
      · exact .prepared hpc hresolve
  case h_18 =>
    split at h <;> cases h
    rename_i hsuspended
    exact .dropped hsuspended
  case h_19 => cases h
  all_goals
    rename_i hpc
    cases h
    constructor
    exact hpc

end LoadCall
end MehoyRuntime.Runtime
