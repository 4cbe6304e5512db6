import MehoyRuntime.Lib.Utf8
import MehoyRuntime.Stream.Wire
import MehoyRuntime.Transport.Pipe

/-!
# The local HTTP surface

The wire types, `route`, and what the client makes of a response. JSON and the syntax of URIs
belong to other crates, so `Externals` carries them.
-/

namespace MehoyRuntime.Daemon
open MehoyRuntime.Transport.Pipe (IoError EndpointError)

/-! ### The protocol -/

structure ProtocolVersion where
  major : UInt32
  minor : UInt32
  deriving DecidableEq, Repr

def PROTOCOL_MAJOR : UInt32 := 1

def PROTOCOL_MINOR : UInt32 := 0

def PATH_HEALTH : String := "/health"

def PATH_RUNTIME : String := "/v1/runtime"

def ProtocolVersion.CURRENT : ProtocolVersion := ⟨PROTOCOL_MAJOR, PROTOCOL_MINOR⟩

structure RuntimeIdentity where
  name : String
  version : String
  deriving DecidableEq, Repr

structure RuntimeInfo where
  protocol : ProtocolVersion
  runtime : RuntimeIdentity
  deriving DecidableEq, Repr

inductive HealthStatus
  | ok
  | shuttingDown
  deriving DecidableEq, Repr

structure Health where
  status : HealthStatus
  deriving DecidableEq, Repr

structure ErrorDetail where
  code : String
  message : String
  deriving DecidableEq, Repr

structure ErrorBody where
  error : ErrorDetail
  deriving DecidableEq, Repr

def ErrorBody.new (code message : String) : ErrorBody := ⟨⟨code, message⟩⟩

/-- What is serialized into a response. -/
inductive Body
  | health (health : Health)
  | runtime (info : RuntimeInfo)
  | error (body : ErrorBody)
  deriving DecidableEq, Repr

/-- The JSON of the wire types, and the path of a URI or the text of its error. -/
structure Externals where
  toVec : Body → Option (List UInt8)
  health : List UInt8 → Except String Health
  runtime : List UInt8 → Except String RuntimeInfo
  errorBody : List UInt8 → Option ErrorBody
  uri : String → Except String String

/-! ### Requests and responses -/

structure Method where
  token : String
  deriving DecidableEq, Repr

def Method.GET : Method := ⟨"GET"⟩

structure Response where
  status : ℕ
  headers : List (String × String)
  body : List UInt8
  deriving DecidableEq, Repr

def RUNTIME_NAME : String := "mehoyd"

def RUNTIME_VERSION : String := "0.1.0"

def runtimeInfo : RuntimeInfo := ⟨.CURRENT, RUNTIME_NAME, RUNTIME_VERSION⟩

def build (status : ℕ) (bytes : List UInt8) : Response :=
  ⟨status, [("content-type", "application/json")], bytes⟩

def encodingFailed : String :=
  "\x7b\"error\":\x7b\"code\":\"encoding_failed\",\"message\":\"response could not be encoded\"\x7d\x7d"

section Route
variable (ext : Externals)

def json (status : ℕ) (body : Body) : Response :=
  match ext.toVec body with
  | some bytes => build status bytes
  | none => build 500 (Utf8.bytesOf encodingFailed)

def methodNotAllowed : Response :=
  let response := json ext 405
    (.error (.new "method_not_allowed" "this route accepts GET only"))
  { response with headers := response.headers ++ [("allow", "GET")] }

def route (method : Method) (path : String) : Response :=
  if path = PATH_HEALTH then
    if method = .GET then json ext 200 (.health ⟨.ok⟩) else methodNotAllowed ext
  else if path = PATH_RUNTIME then
    if method = .GET then json ext 200 (.runtime runtimeInfo) else methodNotAllowed ext
  else json ext 404 (.error (.new "not_found" s!"no route for {path}"))

end Route

/-! ### The client -/

inductive ClientError
  | transport (err : EndpointError)
  | protocol (detail : String)
  | daemon (status : ℕ) (code message : String)
  | malformed (detail : String)
  deriving DecidableEq, Repr

/-- One call of the client. -/
inductive Call
  | health
  | runtime
  | rawGet (path : String)
  deriving DecidableEq, Repr

def Call.path : Call → String
  | .health => PATH_HEALTH
  | .runtime => PATH_RUNTIME
  | .rawGet path => path

inductive Answer
  | health (health : Health)
  | runtime (info : RuntimeInfo)
  | raw (bytes : List UInt8)
  deriving DecidableEq, Repr

section Client
variable (ext : Externals)

/-- The end of `raw_get`, once the response is complete. -/
def received (response : Response) : Except ClientError (List UInt8) :=
  if Stream.isSuccess response.status then .ok response.body
  else
    let (code, message) :=
      match ext.errorBody response.body with
      | some body => (body.error.code, body.error.message)
      | none => ("unknown", Stream.fromUtf8Lossy (response.body.length + 1) response.body)
    .error (.daemon response.status code message)

def parsed (bytes : List UInt8) : Call → Except ClientError Answer
  | .health => ((ext.health bytes).map Answer.health).mapError ClientError.malformed
  | .runtime => ((ext.runtime bytes).map Answer.runtime).mapError ClientError.malformed
  | .rawGet _ => .ok (.raw bytes)

def concluded (call : Call) (response : Response) : Except ClientError Answer := do
  let bytes ← received ext response
  parsed ext bytes call

end Client

def EXIT_NOT_RUNNING : UInt8 := 3

def exitCode : Except ClientError Answer → UInt8
  | .ok _ => 0
  | .error (.transport (.notRunning _)) => EXIT_NOT_RUNNING
  | .error _ => 1

/-! ### What a call is to be answered -/

/-- The documented behaviour of the two crates on what the daemon sends and the client asks. -/
structure Externals.Faithful (ext : Externals) : Prop where
  encodes : ∀ body, ∃ bytes, ext.toVec body = some bytes
  health : ∀ health bytes, ext.toVec (.health health) = some bytes → ext.health bytes = .ok health
  runtime : ∀ bytes, ext.toVec (.runtime runtimeInfo) = some bytes →
    ext.runtime bytes = .ok runtimeInfo
  notFound : ∀ path target bytes, ext.uri path = .ok target → target ≠ PATH_HEALTH →
    target ≠ PATH_RUNTIME →
    ext.toVec (.error (.new "not_found" s!"no route for {target}")) = some bytes →
    ext.errorBody bytes = some (.new "not_found" s!"no route for {target}")
  healthUri : ext.uri PATH_HEALTH = .ok PATH_HEALTH
  runtimeUri : ext.uri PATH_RUNTIME = .ok PATH_RUNTIME

/-- A call is answered for its own path, and by nothing else than its route. -/
inductive Answers (ext : Externals) : Call → Except ClientError Answer → Prop
  | health : Answers ext .health (.ok (.health ⟨.ok⟩))
  | runtime : Answers ext .runtime (.ok (.runtime runtimeInfo))
  | rawHealth (path : String) (bytes : List UInt8) : ext.uri path = .ok PATH_HEALTH →
      ext.toVec (.health ⟨.ok⟩) = some bytes → Answers ext (.rawGet path) (.ok (.raw bytes))
  | rawRuntime (path : String) (bytes : List UInt8) : ext.uri path = .ok PATH_RUNTIME →
      ext.toVec (.runtime runtimeInfo) = some bytes → Answers ext (.rawGet path) (.ok (.raw bytes))
  | notFound (path target : String) : ext.uri path = .ok target → target ≠ PATH_HEALTH →
      target ≠ PATH_RUNTIME → Answers ext (.rawGet path)
        (.error (.daemon 404 "not_found" s!"no route for {target}"))

variable {ext : Externals}

theorem json_ok {status : ℕ} {body : Body} {bytes : List UInt8} (h : ext.toVec body = some bytes) :
    json ext status body = build status bytes := by
  simp only [json, h]

theorem concluded_build (call : Call) (bytes : List UInt8) :
    concluded ext call (build 200 bytes) = parsed ext bytes call := rfl

/-- What the daemon routes, the client reads. -/
theorem concluded_route (h : ext.Faithful) {call : Call} {path : String}
    (hpath : ext.uri call.path = .ok path) :
    Answers ext call (concluded ext call (route ext .GET path)) := by
  obtain ⟨healthy, hhealthy⟩ := h.encodes (.health ⟨.ok⟩)
  obtain ⟨info, hinfo⟩ := h.encodes (.runtime runtimeInfo)
  have hhealth : route ext .GET PATH_HEALTH = build 200 healthy := json_ok hhealthy
  have hruntime : route ext .GET PATH_RUNTIME = build 200 info := json_ok hinfo
  cases call with
  | health =>
    have hsame : PATH_HEALTH = path := Except.ok.inj (h.healthUri.symm.trans hpath)
    rw [← hsame, hhealth, concluded_build, parsed, h.health _ _ hhealthy]
    exact .health
  | runtime =>
    have hsame : PATH_RUNTIME = path := Except.ok.inj (h.runtimeUri.symm.trans hpath)
    rw [← hsame, hruntime, concluded_build, parsed, h.runtime _ hinfo]
    exact .runtime
  | rawGet target =>
    by_cases hfirst : path = PATH_HEALTH
    · subst hfirst
      rw [hhealth]
      exact .rawHealth target healthy hpath hhealthy
    · by_cases hsecond : path = PATH_RUNTIME
      · subst hsecond
        rw [hruntime]
        exact .rawRuntime target info hpath hinfo
      · obtain ⟨bytes, hbytes⟩ := h.encodes (.error (.new "not_found" s!"no route for {path}"))
        have hroute : route ext .GET path = build 404 bytes := by
          rw [route, if_neg hfirst, if_neg hsecond]
          exact json_ok hbytes
        rw [hroute]
        simp only [concluded, received, build, h.notFound target path bytes hpath hfirst hsecond hbytes]
        exact .notFound target path hpath hfirst hsecond

/-! ### The JSON of three requests -/

def healthText : HealthStatus → String
  | .ok => "\x7b\"status\":\"ok\"\x7d"
  | .shuttingDown => "\x7b\"status\":\"shutting_down\"\x7d"

def runtimeText : String :=
  "\x7b\"protocol\":\x7b\"major\":1,\"minor\":0\x7d,\"runtime\":" ++
    "\x7b\"name\":\"mehoyd\",\"version\":\"0.1.0\"\x7d\x7d"

def absent : ErrorBody := .new "not_found" "no route for /nope"

def absentText : String :=
  "\x7b\"error\":\x7b\"code\":\"not_found\",\"message\":\"no route for /nope\"\x7d\x7d"

def sampleExternals : Externals where
  toVec
    | .health health => some (Utf8.bytesOf (healthText health.status))
    | .runtime info => some (if info = runtimeInfo then Utf8.bytesOf runtimeText else [])
    | .error body => some (if body = absent then Utf8.bytesOf absentText else [])
  health bytes :=
    if bytes = Utf8.bytesOf (healthText .ok) then .ok ⟨.ok⟩
    else if bytes = Utf8.bytesOf (healthText .shuttingDown) then .ok ⟨.shuttingDown⟩
    else .error "expected value at line 1 column 1"
  runtime bytes :=
    if bytes = Utf8.bytesOf runtimeText then .ok runtimeInfo
    else .error "expected value at line 1 column 1"
  errorBody bytes := if bytes = Utf8.bytesOf absentText then some absent else none
  uri path :=
    if path = PATH_HEALTH ∨ path = PATH_RUNTIME ∨ path = "/nope" then .ok path
    else .error "invalid uri character"

theorem sampleExternals_faithful : sampleExternals.Faithful where
  encodes body := by cases body <;> exact ⟨_, rfl⟩
  health health bytes h := by
    cases h
    obtain ⟨status⟩ := health
    cases status with
    | ok =>
      simp only [sampleExternals, if_true]
    | shuttingDown =>
      have hne : Utf8.bytesOf (healthText .shuttingDown) ≠ Utf8.bytesOf (healthText .ok) :=
        fun h => absurd (Utf8.bytesOf_injective h) (by decide)
      simp only [sampleExternals, if_true]
      rw [if_neg hne]
  runtime bytes h := by
    cases h
    simp only [sampleExternals, if_true]
  notFound path target bytes huri hfirst hsecond h := by
    have htarget : target = "/nope" := by
      simp only [sampleExternals] at huri
      split at huri
      · rename_i hpath
        cases huri
        rcases hpath with hpath | hpath | hpath
        · exact absurd hpath hfirst
        · exact absurd hpath hsecond
        · exact hpath
      · cases huri
    subst htarget
    cases h
    rfl
  healthUri := rfl
  runtimeUri := rfl

end MehoyRuntime.Daemon
