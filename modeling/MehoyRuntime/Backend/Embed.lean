import MehoyRuntime.Core.Attribution
import MehoyRuntime.Runtime.Request
import MehoyRuntime.Stream.WholeResponse

/-!
# What the adapters make of an answer

`embed` and `classify` of embed.rs beside `generate` of generate.rs: a request that is
encoded, what comes of sending it within its time, and the result or the error that the
caller is told. Decoding JSON belongs to another crate. `Carries` says which result an
answer of the backend carries; the two adapters tell exactly that and nothing else.
-/

namespace MehoyRuntime.Backend
open MehoyRuntime.Core MehoyRuntime.Runtime
open MehoyRuntime.Stream hiding conclude

structure WireEmbedding where
  index : ℕ
  embedding : List F32
  deriving DecidableEq, Repr

structure WireEmbeddings where
  data : List WireEmbedding
  deriving DecidableEq, Repr

/-- The JSON decoders of whole bodies, one for each of the two wire shapes. -/
structure Decoders where
  response : List UInt8 → Except String WireResponse
  embeddings : List UInt8 → Except String WireEmbeddings

/-- What comes of `post` within its time; all its errors are of the transport. -/
inductive Reply
  | elapsed
  | failed (detail : String)
  | answered (status : ℕ) (bytes : List UInt8)
  deriving DecidableEq, Repr

def Reply.posted : Reply → Posted
  | .elapsed => .elapsed
  | .failed detail => .failed (.transport detail)
  | .answered status bytes => .answered status bytes

/-- How long one embedding request may take, in seconds. -/
def requestBudget : ℕ := 60

def classify (ext : Externals) (status : ℕ) (bytes : List UInt8) : EmbedError :=
  let (message, kind) :=
    match ext.decodeError bytes with
    | some body => (body.message, body.kind)
    | none => (fromUtf8Lossy (bytes.length + 1) bytes, "")
  if status = 401 ∨ status = 403 then .unauthorised status
  else if status = 501 then .notSupported message
  else if kind = "not_supported_error" then .notSupported message
  else .rejected status message

def resultOf (wire : WireEmbeddings) : EmbeddingResult :=
  ⟨wire.data.map fun item => ⟨item.index, item.embedding⟩⟩

def embed (ext : Externals) (dec : Decoders) (body : Except String (List UInt8)) (reply : Reply) :
    Except EmbedError EmbeddingResult :=
  match body with
  | .error err => .error (.malformedResponse s!"cannot encode the request: {err}")
  | .ok _ =>
    match reply with
    | .elapsed => .error (.transport s!"no response within {requestBudget}s")
    | .failed detail => .error (.transport detail)
    | .answered status bytes =>
      if !isSuccess status then .error (classify ext status bytes)
      else
        match dec.embeddings bytes with
        | .error err => .error (.malformedResponse err)
        | .ok wire => .ok (resultOf wire)

/-- The adapter that a request goes through. -/
def adapter (ext : Externals) (dec : Decoders) (request : WholeRequest)
    (body : Except String (List UInt8)) (reply : Reply) : Sent :=
  match request with
  | .embed _ => .embed (embed ext dec body reply)
  | .generateText _ => .generate (generate ext dec.response body reply.posted)

/-! ### Results -/

/-- The result that the body of a successful answer carries for a request. -/
def Carries (dec : Decoders) (bytes : List UInt8) : WholeRequest → WholeResult → Prop
  | .embed asked, .embeddings result =>
    ∃ wire, dec.embeddings bytes = .ok wire ∧ result = resultOf wire ∧ Answers asked result
  | .generateText _, .generation result =>
    ∃ wire choice rest, dec.response bytes = .ok wire ∧ wire.choices = choice :: rest ∧
      result = ⟨choice.text, finishReasonFor choice.finishReason, wire.usage.map usageFor⟩ ∧
      result.text ≠ "" ∧ ∀ usage, result.usage = some usage → usage.outputTokens ≠ 0
  | _, _ => False

def Answered (dec : Decoders) (body : Except String (List UInt8)) (reply : Reply)
    (request : WholeRequest) (result : WholeResult) : Prop :=
  ∃ sent status bytes, body = .ok sent ∧ reply = .answered status bytes ∧
    isSuccess status = true ∧ Carries dec bytes request result

variable {ext : Externals} {dec : Decoders} {body : Except String (List UInt8)} {reply : Reply}

theorem embed_ok_iff {result : EmbeddingResult} : embed ext dec body reply = .ok result ↔
    ∃ sent status bytes wire, body = .ok sent ∧ reply = .answered status bytes ∧
      isSuccess status = true ∧ dec.embeddings bytes = .ok wire ∧ result = resultOf wire := by
  constructor
  · intro h
    cases body with
    | error err => cases h
    | ok sent =>
      cases reply with
      | elapsed => cases h
      | failed detail => cases h
      | answered status bytes =>
        simp only [embed] at h
        split at h
        · cases h
        · rename_i hstatus
          split at h
          · cases h
          · rename_i wire hwire
            exact ⟨sent, status, bytes, wire, rfl, rfl, by simpa using hstatus, hwire,
              (Except.ok.inj h).symm⟩
  · rintro ⟨sent, status, bytes, wire, rfl, rfl, hstatus, hwire, rfl⟩
    simp [embed, hstatus, hwire]

theorem generate_ok_iff {result : GenerationResult} :
    generate ext dec.response body reply.posted = .ok result ↔
      ∃ sent status bytes wire choice rest, body = .ok sent ∧ reply = .answered status bytes ∧
        isSuccess status = true ∧ dec.response bytes = .ok wire ∧ wire.choices = choice :: rest ∧
        result = ⟨choice.text, finishReasonFor choice.finishReason, wire.usage.map usageFor⟩ := by
  constructor
  · intro h
    cases body with
    | error err => cases h
    | ok sent =>
      cases reply with
      | elapsed => cases h
      | failed detail => cases h
      | answered status bytes =>
        simp only [generate, Reply.posted] at h
        split at h
        · cases h
        · rename_i hstatus
          split at h
          · cases h
          · rename_i wire hwire
            split at h
            · cases h
            · rename_i choice rest hchoices
              exact ⟨sent, status, bytes, wire, choice, rest, rfl, rfl, by simpa using hstatus,
                hwire, hchoices, (Except.ok.inj h).symm⟩
  · rintro ⟨sent, status, bytes, wire, choice, rest, rfl, rfl, hstatus, hwire, hchoices, rfl⟩
    simp [generate, Reply.posted, hstatus, hwire, hchoices]

theorem validateGeneration_ok_iff {result : GenerationResult} :
    validateGeneration result = .ok () ↔
      result.text ≠ "" ∧ ∀ usage, result.usage = some usage → usage.outputTokens ≠ 0 := by
  unfold validateGeneration
  cases htext : result.text.isEmpty with
  | true => simp [String.isEmpty_iff.mp htext]
  | false =>
    have hne : result.text ≠ "" := by
      intro hempty
      simp [hempty] at htext
    cases husage : result.usage with
    | none => simp [hne]
    | some usage =>
      by_cases hzero : usage.outputTokens = 0
      · simp [hzero]
      · simp [hzero, hne]

theorem conclude_embed_ok {asked : EmbedRequest} {outcome : Except EmbedError EmbeddingResult}
    {result : WholeResult} : (conclude (.embed asked) (.embed outcome)).2 = .ok result ↔
      ∃ vectors, outcome = .ok vectors ∧ Answers asked vectors ∧ result = .embeddings vectors := by
  cases outcome with
  | error err => simp [conclude]
  | ok vectors =>
    rw [conclude]
    cases hvalid : validate asked vectors with
    | error defect =>
      have hnot : ¬ Answers asked vectors := by
        rw [← validate_ok_iff, hvalid]
        simp
      simp [hnot]
    | ok _ =>
      have hanswers : Answers asked vectors := validate_ok_iff.mp hvalid
      simp only [Except.ok.injEq]
      constructor
      · intro h
        exact ⟨vectors, rfl, hanswers, h.symm⟩
      · rintro ⟨_, rfl, -, rfl⟩
        rfl

theorem conclude_generate_ok {asked : GenerateTextRequest}
    {outcome : Except GenerateError GenerationResult} {result : WholeResult} :
    (conclude (.generateText asked) (.generate outcome)).2 = .ok result ↔
      ∃ text, outcome = .ok text ∧ validateGeneration text = .ok () ∧
        result = .generation text := by
  cases outcome with
  | error err => simp [conclude]
  | ok text =>
    rw [conclude]
    cases hvalid : validateGeneration text with
    | error defect =>
      simp only [reduceCtorEq, Except.ok.injEq, false_iff]
      rintro ⟨_, rfl, hok, -⟩
      rw [hvalid] at hok
      cases hok
    | ok _ =>
      simp only [Except.ok.injEq]
      constructor
      · intro h
        exact ⟨text, rfl, hvalid, h.symm⟩
      · rintro ⟨_, rfl, -, rfl⟩
        rfl

/-- What a caller gets is what the answer carries. -/
theorem conclude_adapter (request : WholeRequest) (result : WholeResult) :
    (conclude request (adapter ext dec request body reply)).2 = .ok result ↔
      Answered dec body reply request result := by
  cases request with
  | embed asked =>
    rw [adapter, conclude_embed_ok]
    constructor
    · rintro ⟨vectors, hok, hanswers, rfl⟩
      obtain ⟨sent, status, bytes, wire, hbody, hreply, hstatus, hwire, hresult⟩ :=
        embed_ok_iff.mp hok
      exact ⟨sent, status, bytes, hbody, hreply, hstatus, wire, hwire, hresult, hanswers⟩
    · rintro ⟨sent, status, bytes, hbody, hreply, hstatus, hcarries⟩
      cases result with
      | embeddings vectors =>
        obtain ⟨wire, hwire, hresult, hanswers⟩ := hcarries
        have hok : embed ext dec body reply = .ok vectors :=
          embed_ok_iff.mpr ⟨sent, status, bytes, wire, hbody, hreply, hstatus, hwire, hresult⟩
        exact ⟨vectors, hok, hanswers, rfl⟩
      | generation text => cases hcarries
  | generateText asked =>
    rw [adapter, conclude_generate_ok]
    constructor
    · rintro ⟨text, hok, hvalid, rfl⟩
      obtain ⟨sent, status, bytes, wire, choice, rest, hbody, hreply, hstatus, hwire, hchoices,
        hresult⟩ := generate_ok_iff.mp hok
      exact ⟨sent, status, bytes, hbody, hreply, hstatus, wire, choice, rest, hwire, hchoices,
        hresult, validateGeneration_ok_iff.mp hvalid⟩
    · rintro ⟨sent, status, bytes, hbody, hreply, hstatus, hcarries⟩
      cases result with
      | embeddings vectors => cases hcarries
      | generation text =>
        obtain ⟨wire, choice, rest, hwire, hchoices, hresult, hvalid⟩ := hcarries
        have hok : generate ext dec.response body reply.posted = .ok text :=
          generate_ok_iff.mpr ⟨sent, status, bytes, wire, choice, rest, hbody, hreply, hstatus,
            hwire, hchoices, hresult⟩
        exact ⟨text, hok, validateGeneration_ok_iff.mpr hvalid, rfl⟩

end MehoyRuntime.Backend
