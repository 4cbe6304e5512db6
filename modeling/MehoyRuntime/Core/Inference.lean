import MehoyRuntime.Core.Cancel
import Mathlib.Algebra.Group.Nat.Defs
import Mathlib.Data.List.Basic

/-!
# Inference requests, their results, and what makes a result usable

Requests and results of the two whole-response task classes with the checks made on
them, and the events of a generation stream. A 32-bit float is its bit pattern; the
checks only ask whether it is finite and whether it is negative.
-/

namespace MehoyRuntime.Core

structure F32 where
  bits : UInt32
  deriving DecidableEq, Repr

namespace F32

def negativeSign (x : F32) : Bool := x.bits >>> 31 = 1

def exponent (x : F32) : ℕ := ((x.bits >>> 23) &&& 0xff).toNat

def fraction (x : F32) : ℕ := (x.bits &&& 0x7fffff).toNat

def isFinite (x : F32) : Bool := x.exponent ≠ 255

/-- `x < 0.0` for a finite `x`; a negative zero is not below zero. -/
def isNegative (x : F32) : Bool := x.negativeSign && (x.exponent ≠ 0 || x.fraction ≠ 0)

def significand (x : F32) : ℕ := if x.exponent = 0 then x.fraction else x.fraction + 2 ^ 23

/-- So many quarters of the last place of `x`, in units of `10 ^ -60 * 2 ^ -151`. -/
def scaled (x : F32) (quarters : ℕ) : ℕ := quarters * 2 ^ (max x.exponent 1 - 1) * 10 ^ 60

/-- The decimal `n * 10 ^ (k - 60)` reads back as `x`. -/
def readsBack (x : F32) (k n : ℕ) : Bool :=
  let low := scaled x (4 * x.significand - if x.fraction = 0 ∧ 1 < x.exponent then 1 else 2)
  let high := scaled x (4 * x.significand + 2)
  let value := n * 10 ^ k * 2 ^ 151
  (low < value && value < high) || (x.significand % 2 = 0 && (low = value || value = high))

/-- The multiple of `10 ^ (k - 60)` closest to `x` among those that read back as `x`. -/
def nearest (x : F32) (k : ℕ) : Option ℕ :=
  let value := scaled x (4 * x.significand)
  let step := 10 ^ k * 2 ^ 151
  let below := value / step
  let closer := if 2 * (value % step) ≤ step then [below, below + 1] else [below + 1, below]
  closer.find? fun n => 0 < n && x.readsBack k n

/-- The digits of `n * 10 ^ (k - 60)` with its decimal point, no exponent. -/
def layout (n k : ℕ) : String :=
  if 60 ≤ k then toString n ++ String.ofList (List.replicate (k - 60) '0')
  else
    let places := 60 - k
    let digits := (toString n).toList
    let padded := List.replicate (places + 1 - digits.length) '0' ++ digits
    String.ofList (padded.take (padded.length - places)) ++ "." ++
      String.ofList (padded.drop (padded.length - places))

/-- The shortest decimal that reads back as the number, as the formatter prints it. -/
def display (x : F32) : String :=
  if x.exponent = 255 ∧ x.fraction ≠ 0 then "NaN"
  else
    (if x.negativeSign then "-" else "") ++
      if x.exponent = 255 then "inf"
      else if x.significand = 0 then "0"
      else
        match (List.range 100).reverse.findSome? fun k => (x.nearest k).map fun n => (n, k) with
        | some (n, k) => layout n k
        | none => ""

end F32

/-! ### Embeddings -/

structure EmbedRequest where
  inputs : List String
  deriving DecidableEq, Repr

def EmbedRequest.len (request : EmbedRequest) : ℕ := request.inputs.length

structure Embedding where
  index : ℕ
  vector : List F32
  deriving DecidableEq, Repr

def Embedding.dimension (embedding : Embedding) : ℕ := embedding.vector.length

def Embedding.isFinite (embedding : Embedding) : Bool := embedding.vector.all F32.isFinite

structure EmbeddingResult where
  embeddings : List Embedding
  deriving DecidableEq, Repr

def EmbeddingResult.forInput (result : EmbeddingResult) (index : ℕ) : Option Embedding :=
  result.embeddings.find? fun embedding => embedding.index = index

def EmbeddingResult.dimension (result : EmbeddingResult) : Option ℕ :=
  match result.embeddings.map Embedding.dimension with
  | [] => none
  | first :: rest => if rest.all fun other => other = first then some first else none

inductive ResultDefect
  | countMismatch (expected actual : ℕ)
  | emptyVector (index : ℕ)
  | nonFiniteValue (index : ℕ)
  | inconsistentDimension
  | unattributableIndex (index : ℕ)
  deriving DecidableEq, Repr

def ResultDefect.display : ResultDefect → String
  | .countMismatch expected actual =>
    s!"expected {expected} embedding(s) for {expected} input(s), got {actual}"
  | .emptyVector index => s!"the embedding for input {index} is empty"
  | .nonFiniteValue index =>
    s!"the embedding for input {index} contains a value that is not finite"
  | .inconsistentDimension => "the embeddings in one response have differing dimensions"
  | .unattributableIndex index =>
    s!"the response contains an unexpected or duplicate index {index}"

/-- The loop of `validate` over the embeddings, with the indices seen so far. -/
def validateEach : List Bool → List Embedding → Except ResultDefect Unit
  | _, [] => .ok ()
  | seen, embedding :: rest =>
    match seen[embedding.index]? with
    | none => .error (.unattributableIndex embedding.index)
    | some true => .error (.unattributableIndex embedding.index)
    | some false =>
      if embedding.vector.isEmpty then .error (.emptyVector embedding.index)
      else if !embedding.isFinite then .error (.nonFiniteValue embedding.index)
      else validateEach (seen.set embedding.index true) rest

def validate (request : EmbedRequest) (result : EmbeddingResult) : Except ResultDefect Unit :=
  if result.embeddings.length ≠ request.len then
    .error (.countMismatch request.len result.embeddings.length)
  else
    match validateEach (List.replicate request.len false) result.embeddings with
    | .error defect => .error defect
    | .ok () =>
      if result.dimension.isNone then .error .inconsistentDimension else .ok ()

/-! ### Text generation -/

structure GenerationParameters where
  maxOutputTokens : Option UInt32
  temperature : Option F32
  seed : Option UInt64
  stop : List String
  deriving DecidableEq, Repr

def GenerationParameters.default : GenerationParameters := ⟨none, none, none, []⟩

def maxStopSequences : ℕ := 8

def maxStopSequenceBytes : ℕ := 256

inductive InvalidGenerationParameter
  | temperature (reason : String)
  | maxOutputTokens (reason : String)
  | stopSequences (reason : String)
  deriving DecidableEq, Repr

def InvalidGenerationParameter.display : InvalidGenerationParameter → String
  | .temperature reason => s!"temperature is invalid: {reason}"
  | .maxOutputTokens reason => s!"max_output_tokens is invalid: {reason}"
  | .stopSequences reason => s!"stop sequences are invalid: {reason}"

def validateTemperature : Option F32 → Except InvalidGenerationParameter Unit
  | none => .ok ()
  | some temperature =>
    if !temperature.isFinite then
      .error (.temperature s!"{temperature.display} is not a finite number")
    else if temperature.isNegative then
      .error (.temperature s!"{temperature.display} is negative")
    else .ok ()

def validateStopSequences : List String → Except InvalidGenerationParameter Unit
  | [] => .ok ()
  | sequence :: rest =>
    if sequence.isEmpty then
      .error (.stopSequences "an empty sequence would stop generation immediately")
    else if maxStopSequenceBytes < sequence.utf8ByteSize then
      .error (.stopSequences
        s!"a sequence of {sequence.utf8ByteSize} bytes exceeds the limit of {maxStopSequenceBytes}")
    else validateStopSequences rest

def GenerationParameters.validate (parameters : GenerationParameters) :
    Except InvalidGenerationParameter Unit := do
  validateTemperature parameters.temperature
  if parameters.maxOutputTokens = some 0 then
    throw (.maxOutputTokens "zero asks for no output at all")
  if maxStopSequences < parameters.stop.length then
    throw (.stopSequences
      s!"{parameters.stop.length} sequences exceeds the limit of {maxStopSequences}")
  validateStopSequences parameters.stop

inductive TextInput
  | continuation (text : String)
  deriving DecidableEq, Repr

structure GenerateTextRequest where
  input : TextInput
  parameters : GenerationParameters
  deriving DecidableEq, Repr

inductive FinishReason
  | stop
  | length
  | other (reason : String)
  deriving DecidableEq, Repr

structure GenerationUsage where
  inputTokens : UInt64
  outputTokens : UInt64
  deriving DecidableEq, Repr

structure GenerationResult where
  text : String
  finishReason : FinishReason
  usage : Option GenerationUsage
  deriving DecidableEq, Repr

inductive GenerationDefect
  | noContent
  | implausibleUsage (reason : String)
  deriving DecidableEq, Repr

def GenerationDefect.display : GenerationDefect → String
  | .noContent => "the backend reported success but generated no content"
  | .implausibleUsage reason => s!"the reported token usage is not plausible: {reason}"

def validateGeneration (result : GenerationResult) : Except GenerationDefect Unit :=
  if result.text.isEmpty then .error .noContent
  else
    match result.usage with
    | some usage =>
      if usage.outputTokens = 0 then
        .error (.implausibleUsage "content was returned but no output tokens were reported")
      else .ok ()
    | none => .ok ()

/-! ### Streams of events -/

structure GenerationSummary where
  finishReason : FinishReason
  usage : Option GenerationUsage
  deriving DecidableEq, Repr

inductive GenerationEvent
  | started (requestId : RequestId)
  | textDelta (requestId : RequestId) (text : String)
  | completed (requestId : RequestId) (summary : GenerationSummary)
  | cancelled (requestId : RequestId) (cause : CancellationCause)
  deriving DecidableEq, Repr

inductive GenerationStreamError
  | refused (detail : String)
  | malformedEvent (detail : String)
  | unexpectedEnd (detail : String)
  | transport (detail : String)
  deriving DecidableEq, Repr

abbrev StreamItem := Except GenerationStreamError GenerationEvent

end MehoyRuntime.Core
