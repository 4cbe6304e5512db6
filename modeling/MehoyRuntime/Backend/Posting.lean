import MehoyRuntime.Backend.Embed
import MehoyRuntime.Backend.Credential
import MehoyRuntime.Lib.Json
import MehoyRuntime.Lib.Utf8

/-!
# What the backend is sent

The requests that `embed`, `generate` and `start_generation` post to a backend, with the
JSON of their bodies. The crate that writes JSON is `Writer`: all that is known of it is
that it writes JSON, and that it writes finite floats so that they can be told apart.
`Tells` is what a body says.
-/

namespace MehoyRuntime.Backend
open MehoyRuntime.Core
open Utf8 (textOf)

/-- What `to_vec` makes of a value, and its literal of a finite float. -/
structure Writer where
  toVec : Json.Value → Except String (List UInt8)
  literal : F32 → Json.Number

def IsJson (bytes : List UInt8) (v : Json.Value) : Prop :=
  ∃ text, textOf bytes = some text ∧ Json.Document v text.toList

structure Writer.Conforms (w : Writer) : Prop where
  writes : ∀ v bytes, w.toVec v = .ok bytes → IsJson bytes v
  literal_inj : ∀ x y : F32, x.isFinite = true → y.isFinite = true →
    w.literal x = w.literal y → x = y

/-- A float that is not finite has no literal. -/
def Writer.float (w : Writer) (x : F32) : Json.Value :=
  if x.isFinite then .number (w.literal x) else .null

/-! ### The wire types -/

structure WireEmbedRequest where
  input : List String
  deriving DecidableEq, Repr

def WireEmbedRequest.value (wire : WireEmbedRequest) : Json.Value :=
  .object [("input", .array (wire.input.map .string))]

structure WireRequest where
  prompt : String
  nPredict : Option UInt32
  temperature : Option F32
  seed : Option UInt64
  stop : List String
  stream : Bool
  deriving DecidableEq, Repr

def isUnset (streaming : Bool) : Bool := !streaming

/-- A field that is skipped where it is `none`. -/
def skipNone {α : Type} (name : String) (value : α → Json.Value) (field : Option α) :
    List (String × Json.Value) :=
  (field.map fun x => (name, value x)).toList

def WireRequest.members (w : Writer) (wire : WireRequest) : List (String × Json.Value) :=
  [("prompt", .string wire.prompt)] ++
  skipNone "n_predict" (fun n => .number (.ofNat n.toNat)) wire.nPredict ++
  skipNone "temperature" w.float wire.temperature ++
  skipNone "seed" (fun n => .number (.ofNat n.toNat)) wire.seed ++
  (if wire.stop.isEmpty then [] else [("stop", .array (wire.stop.map .string))]) ++
  (if isUnset wire.stream then [] else [("stream", .bool wire.stream)])

def WireRequest.value (w : Writer) (wire : WireRequest) : Json.Value := .object (wire.members w)

def asStr : TextInput → String
  | .continuation text => text

def wireRequest (request : GenerateTextRequest) (stream : Bool) : WireRequest where
  prompt := asStr request.input
  nPredict := request.parameters.maxOutputTokens
  temperature := request.parameters.temperature
  seed := request.parameters.seed
  stop := request.parameters.stop
  stream := stream

/-! ### The channel -/

def SECRET_BYTES : ℕ := 32

/-- A secret, drawn from the system's randomness. -/
structure ChannelSecret where
  bytes : List UInt8
  length_eq : bytes.length = SECRET_BYTES
  deriving DecidableEq

def ChannelSecret.expose (secret : ChannelSecret) : String := Text.hexOf secret.bytes

/-- A channel as `reserve` makes it, at a port of the loopback address. -/
structure BackendChannel where
  port : UInt16
  secret : ChannelSecret
  deriving DecidableEq

def BackendChannel.host (_ : BackendChannel) : String := "127.0.0.1"

/-! ### Requests -/

def EMBEDDINGS_PATH : String := "/v1/embeddings"

def COMPLETIONS_PATH : String := "/v1/completions"

structure Outgoing where
  port : UInt16
  method : String
  uri : String
  headers : List (String × String)
  body : List UInt8
  deriving DecidableEq, Repr

/-- What is asked of a backend: the two whole requests, and the one that is streamed. -/
inductive Asked
  | embed (request : EmbedRequest)
  | generate (request : GenerateTextRequest) (stream : Bool)
  deriving DecidableEq, Repr

def Asked.uri : Asked → String
  | .embed _ => EMBEDDINGS_PATH
  | .generate _ _ => COMPLETIONS_PATH

def Asked.value (w : Writer) : Asked → Json.Value
  | .embed request => (WireEmbedRequest.mk request.inputs).value
  | .generate request stream => (wireRequest request stream).value w

def Asked.accept : Asked → List (String × String)
  | .generate _ true => [("accept", "text/event-stream")]
  | .generate _ false | .embed _ => []

def Asked.headers (channel : BackendChannel) (asked : Asked) : List (String × String) :=
  [("host", channel.host), ("content-type", "application/json")] ++ asked.accept ++
    [("authorization", "Bearer " ++ channel.secret.expose)]

/-- The request that is sent, once its body is encoded. -/
def post (w : Writer) (channel : BackendChannel) (asked : Asked) : Except String Outgoing :=
  match w.toVec (asked.value w) with
  | .error err => .error s!"cannot encode the request: {err}"
  | .ok body => .ok ⟨channel.port, "POST", asked.uri, asked.headers channel, body⟩

/-- The checks that the loader makes before it asks. -/
def Asked.Valid : Asked → Prop
  | .embed _ => True
  | .generate request _ => request.parameters.validate = .ok ()

/-- The members that a request has in its body, and what they say of it. -/
inductive Asked.Tells (w : Writer) : Asked → String → Json.Value → Prop
  | input (request : EmbedRequest) :
    Tells w (.embed request) "input" (.array (request.inputs.map .string))
  | prompt (request : GenerateTextRequest) (stream : Bool) :
    Tells w (.generate request stream) "prompt" (.string (asStr request.input))
  | nPredict {request : GenerateTextRequest} {n : UInt32} (stream : Bool)
    (h : request.parameters.maxOutputTokens = some n) :
    Tells w (.generate request stream) "n_predict" (.number (.ofNat n.toNat))
  | temperature {request : GenerateTextRequest} {x : F32} (stream : Bool)
    (h : request.parameters.temperature = some x) :
    Tells w (.generate request stream) "temperature" (.number (w.literal x))
  | seed {request : GenerateTextRequest} {n : UInt64} (stream : Bool)
    (h : request.parameters.seed = some n) :
    Tells w (.generate request stream) "seed" (.number (.ofNat n.toNat))
  | stop {request : GenerateTextRequest} (stream : Bool) (h : request.parameters.stop ≠ []) :
    Tells w (.generate request stream) "stop" (.array (request.parameters.stop.map .string))
  | stream (request : GenerateTextRequest) : Tells w (.generate request true) "stream" (.bool true)

variable {w : Writer}

/-! ### What a body says -/

theorem tells_embed_iff {request : EmbedRequest} {name : String} {v : Json.Value} :
    Asked.Tells w (.embed request) name v ↔
      name = "input" ∧ v = .array (request.inputs.map .string) := by
  constructor
  · intro h
    cases h
    exact ⟨rfl, rfl⟩
  · rintro ⟨rfl, rfl⟩
    exact .input request

theorem tells_generate_iff {request : GenerateTextRequest} {stream : Bool} {name : String}
    {v : Json.Value} : Asked.Tells w (.generate request stream) name v ↔
      (name = "prompt" ∧ v = .string (asStr request.input)) ∨
      (name = "n_predict" ∧ ∃ n, request.parameters.maxOutputTokens = some n ∧
        v = .number (.ofNat n.toNat)) ∨
      (name = "temperature" ∧ ∃ x, request.parameters.temperature = some x ∧
        v = .number (w.literal x)) ∨
      (name = "seed" ∧ ∃ n, request.parameters.seed = some n ∧ v = .number (.ofNat n.toNat)) ∨
      (name = "stop" ∧ request.parameters.stop ≠ [] ∧
        v = .array (request.parameters.stop.map .string)) ∨
      (name = "stream" ∧ stream = true ∧ v = .bool true) := by
  constructor
  · intro h
    cases h with
    | prompt => simp
    | nPredict _ h => simp [h]
    | temperature _ h => simp [h]
    | seed _ h => simp [h]
    | stop _ h => simp [h]
    | stream => simp
  · rintro (⟨rfl, rfl⟩ | ⟨rfl, n, h, rfl⟩ | ⟨rfl, x, h, rfl⟩ | ⟨rfl, n, h, rfl⟩ | ⟨rfl, h, rfl⟩ |
      ⟨rfl, rfl, rfl⟩)
    · exact .prompt request stream
    · exact .nPredict stream h
    · exact .temperature stream h
    · exact .seed stream h
    · exact .stop stream h
    · exact .stream request

theorem temperature_isFinite {parameters : GenerationParameters} {x : F32}
    (h : parameters.validate = .ok ()) (hx : parameters.temperature = some x) :
    x.isFinite = true := by
  cases hfinite : x.isFinite with
  | true => rfl
  | false =>
    have hrefused : parameters.validate =
        .error (.temperature s!"{x.display} is not a finite number") := by
      simp [GenerationParameters.validate, validateTemperature, hx, hfinite, bind, Except.bind]
    rw [hrefused] at h
    cases h

theorem mem_skipNone {α : Type} {name name' : String} {value : α → Json.Value} {field : Option α}
    {v : Json.Value} : (name', v) ∈ skipNone name value field ↔
      name' = name ∧ ∃ x, field = some x ∧ v = value x := by
  cases field with
  | none => simp [skipNone]
  | some x => simp [skipNone]

theorem mem_members_iff {request : GenerateTextRequest} {stream : Bool} {name : String}
    {v : Json.Value} (h : request.parameters.validate = .ok ()) :
    (name, v) ∈ (wireRequest request stream).members w ↔
      Asked.Tells w (.generate request stream) name v := by
  have htemperature : (∃ x, request.parameters.temperature = some x ∧ v = w.float x) ↔
      ∃ x, request.parameters.temperature = some x ∧ v = .number (w.literal x) := by
    refine exists_congr fun x => and_congr_right fun hx => ?_
    rw [Writer.float, if_pos (temperature_isFinite h hx)]
  rw [tells_generate_iff]
  simp only [WireRequest.members, wireRequest, List.mem_append, mem_skipNone, htemperature]
  cases stream <;> by_cases hstop : request.parameters.stop = [] <;>
    simp [isUnset, hstop, or_assoc]

def memberNames : List String :=
  ["prompt", "n_predict", "temperature", "seed", "stop", "stream"]

theorem skipNone_names {α : Type} (name : String) (value : α → Json.Value) (field : Option α) :
    ((skipNone name value field).map Prod.fst).Sublist [name] := by
  cases field with
  | none => simp [skipNone]
  | some x => simp [skipNone]

/-- The members stand in the order of the fields. -/
theorem members_names (wire : WireRequest) :
    ((wire.members w).map Prod.fst).Sublist memberNames := by
  have hstop : ((if wire.stop.isEmpty then [] else
      [("stop", Json.Value.array (wire.stop.map .string))]).map Prod.fst).Sublist ["stop"] := by
    split <;> simp
  have hstream : ((if isUnset wire.stream then [] else
      [("stream", Json.Value.bool wire.stream)]).map Prod.fst).Sublist ["stream"] := by
    split <;> simp
  simp only [WireRequest.members, List.map_append]
  exact ((((List.Sublist.refl ["prompt"]).append (skipNone_names ..)).append
    (skipNone_names ..)).append (skipNone_names ..)).append hstop |>.append hstream

section fields
variable {request request' : GenerateTextRequest} {stream stream' : Bool}

theorem tells_nPredict_iff {n : UInt32} :
    Asked.Tells w (.generate request stream) "n_predict" (.number (.ofNat n.toNat)) ↔
      request.parameters.maxOutputTokens = some n := by
  simp [tells_generate_iff, Json.Number.ofNat_injective.eq_iff, UInt32.toNat_inj]

theorem tells_seed_iff {n : UInt64} :
    Asked.Tells w (.generate request stream) "seed" (.number (.ofNat n.toNat)) ↔
      request.parameters.seed = some n := by
  simp [tells_generate_iff, Json.Number.ofNat_injective.eq_iff, UInt64.toNat_inj]

theorem tells_temperature_iff {x : F32} (hw : w.Conforms)
    (h : request.parameters.validate = .ok ()) (hx : x.isFinite = true) :
    Asked.Tells w (.generate request stream) "temperature" (.number (w.literal x)) ↔
      request.parameters.temperature = some x := by
  rw [tells_generate_iff]
  constructor
  · intro htold
    obtain ⟨y, hy, hliteral⟩ : ∃ y, request.parameters.temperature = some y ∧
        w.literal x = w.literal y := by
      simpa using htold
    rw [hw.literal_inj x y hx (temperature_isFinite h hy) hliteral]
    exact hy
  · intro hset
    simp [hset]

theorem strings_injective : Function.Injective (List.map Json.Value.string) :=
  List.map_injective_iff.mpr fun _ _ h => Json.Value.string.inj h

theorem tells_stop_iff {sequences : List String} :
    Asked.Tells w (.generate request stream) "stop" (.array (sequences.map .string)) ↔
      request.parameters.stop = sequences ∧ sequences ≠ [] := by
  rw [tells_generate_iff]
  constructor
  · intro htold
    obtain ⟨hne, hlists⟩ : request.parameters.stop ≠ [] ∧
        sequences.map Json.Value.string = request.parameters.stop.map .string := by
      simpa using htold
    rw [strings_injective hlists]
    exact ⟨rfl, hne⟩
  · rintro ⟨rfl, hne⟩
    simp [hne]

theorem tells_stream_iff :
    Asked.Tells w (.generate request stream) "stream" (.bool true) ↔ stream = true := by
  simp [tells_generate_iff]

theorem parameters_told (hw : w.Conforms) (h : request.parameters.validate = .ok ())
    (h' : request'.parameters.validate = .ok ())
    (htells : ∀ name v, Asked.Tells w (.generate request stream) name v ↔
      Asked.Tells w (.generate request' stream') name v) :
    request.parameters = request'.parameters := by
  have htokens : request.parameters.maxOutputTokens = request'.parameters.maxOutputTokens := by
    apply Option.ext
    intro n
    exact tells_nPredict_iff.symm.trans ((htells _ _).trans tells_nPredict_iff)
  have hseed : request.parameters.seed = request'.parameters.seed := by
    apply Option.ext
    intro n
    exact tells_seed_iff.symm.trans ((htells _ _).trans tells_seed_iff)
  have htemperature : request.parameters.temperature = request'.parameters.temperature := by
    apply Option.ext
    intro x
    constructor
    · intro hx
      have hfinite := temperature_isFinite h hx
      exact (tells_temperature_iff hw h' hfinite).mp
        ((htells _ _).mp ((tells_temperature_iff hw h hfinite).mpr hx))
    · intro hx
      have hfinite := temperature_isFinite h' hx
      exact (tells_temperature_iff hw h hfinite).mp
        ((htells _ _).mpr ((tells_temperature_iff hw h' hfinite).mpr hx))
  have hstop : request.parameters.stop = request'.parameters.stop := by
    by_cases hempty : request'.parameters.stop = []
    · by_contra hne
      have htold : Asked.Tells w (.generate request stream) "stop" _ :=
        tells_stop_iff.mpr ⟨rfl, fun hnone => hne (hnone.trans hempty.symm)⟩
      exact hne (tells_stop_iff.mp ((htells _ _).mp htold)).1.symm
    · exact (tells_stop_iff.mp ((htells _ _).mpr (tells_stop_iff.mpr ⟨rfl, hempty⟩))).1
  cases hp : request.parameters
  cases hp' : request'.parameters
  simp_all

end fields

/-- A request is what its members say. -/
theorem tells_injective {asked asked' : Asked} (hw : w.Conforms) (h : asked.Valid)
    (h' : asked'.Valid) (htells : ∀ name v, asked.Tells w name v ↔ asked'.Tells w name v) :
    asked = asked' := by
  cases asked with
  | embed request =>
    cases asked' with
    | embed request' =>
      have hlists : request.inputs.map Json.Value.string = request'.inputs.map .string := by
        simpa [tells_embed_iff] using (htells _ _).mp (.input request)
      cases request
      cases request'
      simpa using strings_injective hlists
    | generate request' stream' =>
      simpa [tells_generate_iff] using (htells _ _).mp (.input request)
  | generate request stream =>
    cases asked' with
    | embed request' =>
      simpa [tells_embed_iff] using (htells _ _).mp (.prompt request stream)
    | generate request' stream' =>
      have hprompt : asStr request.input = asStr request'.input := by
        simpa [tells_generate_iff] using (htells _ _).mp (.prompt request stream)
      have hparameters := parameters_told hw h h' htells
      obtain rfl : stream = stream' := by
        rw [Bool.eq_iff_iff, ← tells_stream_iff, htells, tells_stream_iff]
      obtain ⟨⟨text⟩, parameters⟩ := request
      obtain ⟨⟨text'⟩, parameters'⟩ := request'
      obtain rfl : text = text' := hprompt
      obtain rfl : parameters = parameters' := hparameters
      rfl

/-! ### Headers -/

def Visible (text : String) : Prop := ∀ c ∈ text.toList, ' ' ≤ c ∧ c ≤ '~'

theorem visible_of_all {text : String}
    (h : text.toList.all (fun c => decide (' ' ≤ c ∧ c ≤ '~')) = true) : Visible text :=
  fun c hc => of_decide_eq_true (List.all_eq_true.mp h c hc)

theorem hexDigit_visible : ∀ n < 16, ' ' ≤ Text.hexDigit n ∧ Text.hexDigit n ≤ '~' := by
  decide

theorem expose_visible (secret : ChannelSecret) : Visible secret.expose := by
  intro c hc
  obtain ⟨b, -, hmem⟩ : ∃ b ∈ secret.bytes,
      c = Text.hexDigit (b.toNat / 16) ∨ c = Text.hexDigit (b.toNat % 16) := by
    simpa [ChannelSecret.expose, Text.hexOf] using hc
  have hbyte := b.toNat_lt
  rcases hmem with rfl | rfl
  · exact hexDigit_visible _ (by omega)
  · exact hexDigit_visible _ (by omega)

theorem expose_injective : Function.Injective ChannelSecret.expose := by
  intro secret secret' h
  cases secret
  cases secret'
  congr 1
  exact Text.hexOf_injective h

theorem headers_visible {channel : BackendChannel} {asked : Asked} {header : String × String}
    (h : header ∈ asked.headers channel) : Visible header.2 := by
  simp only [Asked.headers, List.mem_append, List.mem_cons, List.not_mem_nil, or_false] at h
  rcases h with ((rfl | rfl) | haccept) | rfl
  · exact visible_of_all (by decide : "127.0.0.1".toList.all _ = true)
  · exact visible_of_all (by decide)
  · cases asked with
    | embed request => simp [Asked.accept] at haccept
    | generate request stream =>
      cases stream with
      | false => simp [Asked.accept] at haccept
      | true =>
        obtain rfl : header = ("accept", "text/event-stream") := by
          simpa [Asked.accept] using haccept
        exact visible_of_all (by decide)
  · intro c hc
    rw [String.toList_append, List.mem_append] at hc
    rcases hc with hbearer | hsecret
    · have hword : Visible "Bearer " := visible_of_all (by decide)
      exact hword c hbearer
    · exact expose_visible channel.secret c hsecret

theorem headers_secret {channel channel' : BackendChannel} {asked asked' : Asked}
    (h : asked.headers channel = asked'.headers channel') : channel.secret = channel'.secret := by
  have hlast := congrArg List.getLast? h
  simp only [Asked.headers, List.getLast?_concat] at hlast
  exact expose_injective (by simpa using hlast)

/-! ### What is sent -/

/-- The object that says what is asked, and nothing else. -/
structure Asked.SaidBy (w : Writer) (asked : Asked) (members : List (String × Json.Value)) :
    Prop where
  names : (members.map Prod.fst).Nodup
  tells : ∀ name v, (name, v) ∈ members ↔ asked.Tells w name v

theorem value_saidBy {asked : Asked} (h : asked.Valid) :
    ∃ members, asked.value w = .object members ∧ asked.SaidBy w members := by
  cases asked with
  | embed request =>
    refine ⟨_, rfl, by simp, ?_⟩
    intro name v
    simp [tells_embed_iff]
  | generate request stream =>
    refine ⟨_, rfl, ?_, fun name v => mem_members_iff h⟩
    exact (members_names _).nodup (by decide)

theorem post_ok {channel : BackendChannel} {asked : Asked} {out : Outgoing}
    (h : post w channel asked = .ok out) : w.toVec (asked.value w) = .ok out.body ∧
      out.port = channel.port ∧ out.headers = asked.headers channel := by
  unfold post at h
  split at h
  · cases h
  · rename_i body hbody
    cases h
    exact ⟨hbody, rfl, rfl⟩

theorem body_reads (hw : w.Conforms) {channel : BackendChannel} {asked : Asked} {out : Outgoing}
    (hvalid : asked.Valid) (h : post w channel asked = .ok out) :
    ∃ members, asked.SaidBy w members ∧ ∀ v, IsJson out.body v ↔ v = .object members := by
  obtain ⟨members, hvalue, hsaid⟩ := value_saidBy hvalid
  obtain ⟨text, htext, hdocument⟩ := hw.writes _ _ (post_ok h).1
  refine ⟨members, hsaid, fun v => ?_⟩
  rw [hvalue] at hdocument
  constructor
  · rintro ⟨text', htext', hdocument'⟩
    obtain rfl : text = text' := by
      simpa [htext] using htext'
    exact hdocument'.unique hdocument
  · rintro rfl
    exact ⟨text, htext, hdocument⟩

theorem requests_are_unmistakable (hw : w.Conforms) :
    (∀ channel channel' asked asked' out, asked.Valid → asked'.Valid →
      post w channel asked = .ok out → post w channel' asked' = .ok out →
      asked = asked' ∧ channel = channel') ∧
    ∀ channel asked out, asked.Valid → post w channel asked = .ok out →
      (∀ header ∈ out.headers, Visible header.2) ∧
      ∃ members, asked.SaidBy w members ∧ ∀ v, IsJson out.body v ↔ v = .object members := by
  constructor
  · intro channel channel' asked asked' out hvalid hvalid' h h'
    obtain ⟨-, hport, hheaders⟩ := post_ok h
    obtain ⟨-, hport', hheaders'⟩ := post_ok h'
    obtain ⟨members, hsaid, hreads⟩ := body_reads hw hvalid h
    obtain ⟨members', hsaid', hreads'⟩ := body_reads hw hvalid' h'
    have hobject : Json.Value.object members = .object members' :=
      (hreads' _).mp ((hreads _).mpr rfl)
    obtain rfl : members = members' := Json.Value.object.inj hobject
    refine ⟨tells_injective hw hvalid hvalid' ?_, ?_⟩
    · intro name v
      rw [← hsaid.tells, hsaid'.tells]
    · have hsecret := headers_secret (hheaders.symm.trans hheaders')
      cases channel
      cases channel'
      simp_all
  · intro channel asked out hvalid h
    refine ⟨fun header hheader => ?_, body_reads hw hvalid h⟩
    rw [(post_ok h).2.2] at hheader
    exact headers_visible hheader

/-! A prompt that would be another member, and the member itself. -/

namespace Sample

def writer : Writer where
  toVec v := .ok (Utf8.bytesOf (String.ofList (Json.compact v)))
  literal x := .ofNat x.bits.toNat

theorem writer_conforms : writer.Conforms where
  writes v bytes h := by
    cases h
    refine ⟨_, Utf8.textOf_bytesOf _, ?_⟩
    rw [String.toList_ofList]
    exact Json.document_compact v
  literal_inj x y _ _ h := by
    obtain ⟨bits⟩ := x
    obtain ⟨bits'⟩ := y
    exact congrArg F32.mk (UInt32.toNat_inj.mp (Json.Number.ofNat_injective h))

def channel : BackendChannel := ⟨4711, ⟨List.replicate 32 7, rfl⟩⟩

def forging : Asked :=
  .generate ⟨.continuation "a\",\"seed\":7\n", ⟨some 16, none, none, ["\n"]⟩⟩ true

def honest : Asked := .generate ⟨.continuation "a", ⟨some 16, none, some 7, ["\n"]⟩⟩ true

end Sample

theorem requests_are_unmistakable_forging : ∃ out members,
    post Sample.writer Sample.channel Sample.forging = .ok out ∧
    post Sample.writer Sample.channel Sample.honest ≠ .ok out ∧
    IsJson out.body (.object members) ∧ ∀ v, ("seed", v) ∉ members := by
  obtain ⟨hsame, hbody⟩ := requests_are_unmistakable Sample.writer_conforms
  have hvalid : Sample.forging.Valid := rfl
  obtain ⟨-, members, hsaid, hreads⟩ := hbody Sample.channel Sample.forging _ hvalid rfl
  refine ⟨_, members, rfl, ?_, (hreads _).mpr rfl, ?_⟩
  · intro h
    have hask := (hsame Sample.channel Sample.channel Sample.forging Sample.honest _ hvalid
      rfl rfl h).1
    exact absurd hask (by decide)
  · intro v hseed
    have htold := (hsaid.tells "seed" v).mp hseed
    simp [Sample.forging, tells_generate_iff] at htold

end MehoyRuntime.Backend
