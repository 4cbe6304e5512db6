import MehoyRuntime.Lib.Text
import MehoyRuntime.Stream.Wire

/-!
# What the runtime reports

Identifiers, capabilities, phases, outcomes and errors of instances and of the runtime
over them, with the texts that other errors are built from.
-/

namespace MehoyRuntime.Runtime
open MehoyRuntime.Core

/-! ### Instances -/

structure InstanceId where
  encoded : String
  deriving DecidableEq, Repr

/-- Twelve bytes from the system's randomness, two hexadecimal digits each. -/
def InstanceId.generate (bytes : List UInt8) : InstanceId := ⟨Text.hexOf bytes⟩

inductive InstanceState
  | starting
  | backendReady
  | failed (reason : String)
  deriving DecidableEq, Repr

def InstanceState.isUsable : InstanceState → Bool
  | .backendReady => true
  | .starting | .failed _ => false

def InstanceState.display : InstanceState → String
  | .starting => "starting"
  | .backendReady => "backend ready"
  | .failed reason => s!"failed: {reason}"

inductive LifecyclePhase
  | serving
  | unloading
  | unloaded
  | unloadFailed
  deriving DecidableEq, Repr

def LifecyclePhase.display : LifecyclePhase → String
  | .serving => "serving"
  | .unloading => "unloading"
  | .unloaded => "unloaded"
  | .unloadFailed => "failed to unload"

/-! ### Backends -/

structure BackendIdentity where
  executable : String
  build : Option String
  commit : Option String
  banner : String
  deriving DecidableEq, Repr

def BackendIdentity.display (identity : BackendIdentity) : String :=
  let build := identity.build.elim "" fun b => s!" build {b}"
  let commit := identity.commit.elim "" fun c => s!" ({c})"
  s!"llama.cpp{build}{commit} at {identity.executable}"

/-- Why a backend could not be used. A failure of supervision carries the text of its
source and what the worker printed. -/
inductive BackendError
  | unavailable (reason : String)
  | unidentifiable (executable reason : String)
  | channel (detail : String)
  | rejected (detail : String)
  | worker (source : String) (identity : Option BackendIdentity) (output : String)
  deriving DecidableEq, Repr

def BackendError.display : BackendError → String
  | .unavailable reason => s!"no llama.cpp backend available: {reason}"
  | .unidentifiable executable reason =>
    s!"cannot identify llama.cpp backend {executable}: {reason}"
  | .channel detail => s!"cannot establish a private backend channel: {detail}"
  | .rejected detail => s!"backend rejected its own credentials: {detail}"
  | .worker source identity output =>
    let built := identity.elim "" fun i => s!"\nbackend: {i.display}"
    let printed := if (Stream.trim output).isEmpty then "" else s!"\nbackend output:\n{output}"
    s!"{source}{built}{printed}"

inductive EmbedError
  | notSupported (detail : String)
  | unauthorised (status : ℕ)
  | rejected (status : ℕ) (detail : String)
  | malformedResponse (detail : String)
  | transport (detail : String)
  deriving DecidableEq, Repr

def EmbedError.display : EmbedError → String
  | .notSupported detail => s!"the backend does not serve embeddings as started: {detail}"
  | .unauthorised status => s!"the backend refused the runtime's credential ({status})"
  | .rejected status detail => s!"the backend rejected the request ({status}): {detail}"
  | .malformedResponse detail =>
    s!"the backend's embedding response was not usable: {detail}"
  | .transport detail => s!"the embedding request failed: {detail}"

/-! ### Capabilities -/

inductive ModelCapability
  | textGeneration
  | embeddings
  | vision
  | toolCalling
  | structuredOutput
  deriving DecidableEq, Repr

inductive CapabilityEvidence
  | metadata
  | backendSupported
  deriving DecidableEq, Repr

/-- How strongly a capability is known. A verified one carries when it was demonstrated
and by which backend. -/
inductive CapabilityState
  | unknown
  | indicated (evidence : CapabilityEvidence)
  | verified (at_ : ℕ) (backend : Option BackendIdentity)
  deriving DecidableEq, Repr

abbrev ModelCapabilities := ModelCapability → CapabilityState

def ModelCapabilities.verify (capabilities : ModelCapabilities) (capability : ModelCapability)
    (now : ℕ) (backend : Option BackendIdentity) : ModelCapabilities :=
  fun c => if c = capability then .verified now backend else capabilities c

/-! ### Outcomes and errors -/

inductive LoadError
  | unknownArtifact (id : String)
  | artifactMissing (id path : String)
  | artifactChanged (id reason : String)
  | incompatible (reason : String)
  | backend (err : BackendError)
  | registry (detail : String)
  | instance_ (reason : String)
  | notUsable (state : String)
  | stopped (cause : CancellationCause)
  | invalidRequest (detail : String)
  | inference (detail : String)
  | unusableResult (detail : String)
  deriving DecidableEq, Repr

def CancellationCause.display : CancellationCause → String
  | .user => "cancelled"
  | .streamIdleTimeout => "idle for longer than allowed"
  | .consumerGone => "nothing was reading the output"
  | .instanceUnloading => "the model was being unloaded"

def LoadError.display : LoadError → String
  | .unknownArtifact id => s!"no artifact registered with id {id}"
  | .artifactMissing id path => s!"artifact {id} is registered but {path} no longer exists"
  | .artifactChanged id reason =>
    s!"artifact {id} has changed since it was registered ({reason}); re-register it rather than " ++
      "loading something that was never inspected"
  | .incompatible reason => s!"the backend cannot run this artifact: {reason}"
  | .backend err => err.display
  | .registry detail => detail
  | .instance_ reason => s!"the backend started but the instance could not be created: {reason}"
  | .notUsable state => s!"the instance cannot serve requests while it is {state}"
  | .invalidRequest detail => s!"the request cannot be honoured: {detail}"
  | .stopped cause => s!"the request was stopped: {CancellationCause.display cause}"
  | .inference detail => detail
  | .unusableResult detail => s!"the backend returned a result that cannot be used: {detail}"

inductive CancelOutcome
  | requested
  | alreadyStopping (cause : CancellationCause)
  | alreadyFinished (state : RequestState)
  deriving DecidableEq, Repr

inductive CancelError
  | unknown (requestId : RequestId)
  deriving DecidableEq, Repr

inductive UnloadOutcome
  | drained (cancelled : ℕ)
  | escalated (cancelled unsettled : ℕ)
  | alreadyUnloading
  | alreadyUnloaded
  | alreadyFailed
  deriving DecidableEq, Repr

inductive RuntimeError
  | unknownInstance (id : InstanceId)
  | residentCapacityReached (capacity : UInt64)
  | resourcesExhausted (requested committed limit : UInt64)
  | instance_ (err : LoadError)
  | cancel (err : CancelError)
  deriving DecidableEq, Repr

end MehoyRuntime.Runtime
