import MehoyRuntime.Core.Inference
import MehoyRuntime.Stream.Sse

/-!
# The engine's wire format

What the streaming adapter reads from a response. Decoding JSON belongs to another
crate, so `Externals` carries it; everything made of the decoded values is here.
-/

namespace MehoyRuntime.Stream
open MehoyRuntime.Core

structure WireChoice where
  text : String
  finishReason : Option String
  deriving DecidableEq, Repr

structure WireUsage where
  promptTokens : UInt64
  completionTokens : UInt64
  deriving DecidableEq, Repr

structure WireResponse where
  choices : List WireChoice
  usage : Option WireUsage
  deriving DecidableEq, Repr

structure WireErrorBody where
  message : String
  kind : String
  deriving DecidableEq, Repr

/-- The JSON decoder: of one event payload, with the text of its error, and of the body
of a failure status. -/
structure Externals where
  decode : String → Except String WireResponse
  decodeError : List UInt8 → Option WireErrorBody

inductive GenerateError
  | notSupported (detail : String)
  | unauthorised (status : ℕ)
  | rejected (status : ℕ) (detail : String)
  | malformedResponse (detail : String)
  | transport (detail : String)
  deriving DecidableEq, Repr

def GenerateError.display : GenerateError → String
  | .notSupported detail => s!"the backend does not generate text as started: {detail}"
  | .unauthorised status => s!"the backend refused the runtime's credential ({status})"
  | .rejected status detail => s!"the backend rejected the request ({status}): {detail}"
  | .malformedResponse detail =>
    s!"the backend's generation response was not usable: {detail}"
  | .transport detail => s!"the generation request failed: {detail}"

def isSuccess (status : ℕ) : Bool := 200 ≤ status && status < 300

def classify (ext : Externals) (status : ℕ) (bytes : List UInt8) : GenerateError :=
  let (message, kind) :=
    match ext.decodeError bytes with
    | some body => (body.message, body.kind)
    | none => (fromUtf8Lossy (bytes.length + 1) bytes, "")
  if status = 401 ∨ status = 403 then .unauthorised status
  else if status = 501 then .notSupported message
  else if kind = "not_supported_error" then .notSupported message
  else .rejected status message

def finishReasonFor : Option String → FinishReason
  | some "stop" => .stop
  | some "length" => .length
  | some other => .other other
  | none => .other "unreported"

def usageFor (usage : WireUsage) : GenerationUsage :=
  ⟨usage.promptTokens, usage.completionTokens⟩

def doneMarker : String := "[DONE]"

/-- Unicode `White_Space`, which `trim` removes at both ends. -/
def isWhiteSpace (c : Char) : Bool :=
  let n := c.toNat
  (9 ≤ n && n ≤ 13) || n = 0x20 || n = 0x85 || n = 0xa0 || n = 0x1680 ||
    (0x2000 ≤ n && n ≤ 0x200a) || n = 0x2028 || n = 0x2029 || n = 0x202f || n = 0x205f ||
    n = 0x3000

def trim (text : String) : List Char :=
  ((text.toList.dropWhile isWhiteSpace).reverse.dropWhile isWhiteSpace).reverse

def isDone (payload : String) : Bool := trim payload = doneMarker.toList

/-- Describes an unparseable event by its first 120 characters. -/
def describe (error payload : String) : String :=
  let excerpt := String.ofList (payload.toList.take 120)
  let shown :=
    if excerpt.utf8ByteSize < payload.utf8ByteSize then excerpt ++ "..." else excerpt
  s!"{error}, in: {shown}"

/-- What one payload asks of the loop in `read`: the end of the stream, its failure,
nothing, or a delta, with the summary recorded by then. -/
inductive PayloadStep
  | marked
  | malformed (detail : String)
  | skipped
  | delta (text : String) (terminal : Option GenerationSummary)
  deriving DecidableEq, Repr

def readPayload (ext : Externals) (terminal : Option GenerationSummary) (payload : String) :
    PayloadStep :=
  if isDone payload then .marked
  else
    match ext.decode payload with
    | .error err => .malformed (describe err payload)
    | .ok parsed =>
      match parsed.choices with
      | [] => .skipped
      | choice :: _ =>
        match choice.finishReason with
        | some reported =>
          .delta choice.text (some ⟨finishReasonFor (some reported), parsed.usage.map usageFor⟩)
        | none => .delta choice.text terminal

end MehoyRuntime.Stream
