import Mathlib.Data.List.Infix
import Mathlib.Logic.Basic

/-!
# Judging an artifact before a start

What is decided from the description of an artifact alone: whether a backend is started for
it, in which mode, and with which command line.
-/

namespace MehoyRuntime.Backend

structure ModelDescriptor where
  architecture : Option String
  contextLength : Option UInt64
  embeddingLength : Option UInt64
  tokenizerModel : Option String
  hasChatTemplate : Bool
  deriving DecidableEq, Repr

inductive Compatibility
  | supported
  | unsupported (reason : String)
  | unknown (reason : String)
  deriving DecidableEq, Repr

def Compatibility.permitsStart : Compatibility → Bool
  | .unsupported _ => false
  | .supported | .unknown _ => true

def Compatibility.display : Compatibility → String
  | .supported => "supported"
  | .unsupported reason => s!"unsupported: {reason}"
  | .unknown reason => s!"undetermined: {reason}"

inductive LaunchMode
  | general
  | embedding
  deriving DecidableEq, Repr

/-- `str::contains`. -/
def occursIn (family architecture : String) : Bool :=
  architecture.toList.tails.any (family.toList.isPrefixOf ·)

def EMBEDDING_ORIENTED : List String := ["bert"]

def NOT_STANDALONE : List String := ["clip"]

def launchMode (descriptor : ModelDescriptor) : LaunchMode :=
  let embeddingOriented := descriptor.architecture.any fun architecture =>
    EMBEDDING_ORIENTED.any (occursIn · architecture)
  if embeddingOriented && !descriptor.hasChatTemplate then .embedding else .general

def assess (descriptor : ModelDescriptor) : Compatibility :=
  match descriptor.architecture with
  | none => .unknown "the container declares no architecture"
  | some architecture =>
    if NOT_STANDALONE.contains architecture then
      .unsupported s!"{architecture} is a companion projector rather than a standalone model"
    else if descriptor.tokenizerModel.isNone then
      .unknown (s!"{architecture} declares no tokenizer, so whether it can be served alone " ++
        "is undetermined")
    else .unknown s!"{architecture} is not known to be unsupported; the backend decides"

inductive GpuLayerPolicy
  | cpuOnly
  | layers (count : UInt32)
  deriving DecidableEq, Repr

structure LlamaCppWorkerSpec where
  modelPath : String
  descriptor : ModelDescriptor
  contextSize : Option UInt32
  gpuLayers : Option GpuLayerPolicy

/-- A channel is its port on the loopback address, which is all that `reserve` gives. -/
def commandLine (spec : LlamaCppWorkerSpec) (channel : ℕ) (secretFile : String) : List String :=
  ["--model", spec.modelPath, "--host", "127.0.0.1", "--port", toString channel,
    "--api-key-file", secretFile, "--no-webui"] ++
  (if launchMode spec.descriptor = .embedding then ["--embedding"] else []) ++
  (match spec.contextSize with
    | some context => ["--ctx-size", toString context]
    | none => []) ++
  match spec.gpuLayers with
  | some .cpuOnly => ["--n-gpu-layers", "0"]
  | some (.layers count) => ["--n-gpu-layers", toString count]
  | none => []

variable {descriptor : ModelDescriptor}

/-! ### The verdicts -/

theorem assess_permits_iff :
    (assess descriptor).permitsStart = true ↔ descriptor.architecture ≠ some "clip" := by
  unfold assess NOT_STANDALONE
  cases harchitecture : descriptor.architecture with
  | none => simp [Compatibility.permitsStart]
  | some architecture =>
    by_cases hclip : architecture = "clip"
    · simp [hclip, Compatibility.permitsStart]
    · cases descriptor.tokenizerModel <;> simp [hclip, Compatibility.permitsStart]

/-- The one reason there is for a refusal. -/
theorem assess_refused (h : descriptor.architecture = some "clip") :
    (assess descriptor).display =
      "unsupported: clip is a companion projector rather than a standalone model" := by
  simp only [assess, h]
  rfl

/-- The general mode is the one with a conversation template, or without a family of embedding
models. -/
theorem launchMode_embedding_iff : launchMode descriptor = .embedding ↔
    descriptor.architecture.any (occursIn "bert") = true ∧ descriptor.hasChatTemplate = false := by
  simp [launchMode, EMBEDDING_ORIENTED]

end MehoyRuntime.Backend
