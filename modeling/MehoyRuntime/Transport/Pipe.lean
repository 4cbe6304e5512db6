import MehoyRuntime.Lib.System
import MehoyRuntime.Lib.Slots
import MehoyRuntime.Transport.Daemons

/-!
# The named pipe of the daemon

`Endpoint::bind`, `accept` and the drop of an `Endpoint`, and `connect`, at one pipe name:
any number of daemons and clients of one user, one system call at a time. What the system
does with the name, and what else fails, is chosen by the labels.
-/

namespace MehoyRuntime.Transport.Pipe
open TransitionSystem

/-- The kinds of error that the transport and the server tell apart. -/
inductive ErrorKind
  | notFound
  | permissionDenied
  | addrInUse
  | connectionAborted
  | connectionReset
  | interrupted
  | brokenPipe
  | timedOut
  | other
  deriving DecidableEq, Repr

structure IoError where
  kind : ErrorKind
  rawOsError : Option Int32
  message : String
  deriving DecidableEq, Repr

inductive EndpointError
  | alreadyRunning (address : String)
  | notRunning (address : String)
  | io (err : IoError)
  deriving DecidableEq, Repr

def ERROR_FILE_NOT_FOUND : Int32 := 2
def ERROR_ACCESS_DENIED : Int32 := 5
def ERROR_PIPE_BUSY : Int32 := 231

/-- Durations and instants are in milliseconds. -/
def BIND_LINGER_BUDGET : ℕ := 3000
def BIND_RETRY_INTERVAL : ℕ := 25
def BIND_LIVENESS_CONFIRMATION : ℕ := 400
def BUSY_WAIT_BUDGET : ℕ := 5000
def BUSY_RETRY_INTERVAL : ℕ := 20

/-! ### The pipe name -/

/-- An instance whose handle is closed stays under the name until the system tears it down. -/
inductive Phase
  | held
  | closing
  | gone
  deriving DecidableEq, Repr

inductive Opener
  | client (c : ℕ)
  | probe (d : ℕ)
  deriving DecidableEq, Repr

structure Instance where
  creator : ℕ
  phase : Phase
  opener : Option Opener
  deriving DecidableEq, Repr

def Instance.listening (found : Instance) : Bool := found.phase ≠ .gone && found.opener.isNone

/-! ### The trace -/

inductive Stage
  | instanceCreated
  | connectWaitStarted
  | connectCompleted
  | replacementCreateStarted
  | replacementCreated
  | connectionHandedOff
  | endpointClosed
  | acceptFailed
  deriving DecidableEq, Repr

structure EndpointEvent where
  stage : Stage
  address : String
  generation : UInt64
  listenerPresent : Bool
  error : Option IoError
  instant : ℕ
  deriving DecidableEq, Repr

/-! ### Daemons and clients -/

/-- The locals of `bind`. -/
structure Binding where
  deadline : ℕ
  answeredAt : Option ℕ
  deriving DecidableEq, Repr

structure Endpoint where
  pending : Option ℕ
  generation : UInt64
  deriving DecidableEq, Repr

/-- Where `accept` is, with what it last returned. -/
inductive Accepting
  | returned (last : Option (Except IoError ℕ))
  | connecting
  | yielding

inductive Daemon
  | unbound
  | creating (locals : Binding)
  | probing (locals : Binding)
  | judging (locals : Binding)
  | sleeping (locals : Binding) (wake : ℕ)
  | failed (err : EndpointError)
  | live (endpoint : Endpoint) (accepting : Accepting)
  | dropping (pending : Option ℕ)
  | closed

inductive Client
  | idle (last : Option (Except EndpointError ℕ))
  | opening (deadline : ℕ)
  | sleeping (deadline wake : ℕ)

/-- A connected instance that `accept` has returned. -/
structure Stream where
  daemon : ℕ
  handle : ℕ
  deriving DecidableEq, Repr

structure Site extends Daemons Daemon where
  now : ℕ
  instances : List Instance
  clients : ℕ → Client
  streams : List Stream
  trace : ℕ → List EndpointEvent

namespace Site

abbrev set (site : Site) (d : ℕ) (daemon : Daemon) : Site :=
  { site with toDaemons := site.toDaemons.set d daemon }

def setClient (site : Site) (c : ℕ) (client : Client) : Site :=
  { site with clients := Function.update site.clients c client }

def emit (site : Site) (address : String) (d : ℕ) (stage : Stage) (generation : UInt64)
    (listenerPresent : Bool) (error : Option IoError) : Site :=
  let event := ⟨stage, address, generation, listenerPresent, error, site.now⟩
  { site with trace := Function.update site.trace d (site.trace d ++ [event]) }

/-- A first instance is refused while any other is under the name. -/
def create (site : Site) (d : ℕ) (first : Bool) : Except IoError (Site × ℕ) :=
  if first ∧ ∃ found ∈ site.instances, found.phase ≠ .gone then
    .error ⟨.permissionDenied, some ERROR_ACCESS_DENIED, "Access is denied. (os error 5)"⟩
  else
    .ok ({ site with instances := site.instances ++ [⟨d, .held, none⟩] }, site.instances.length)

/-- The instance a client gets to: one that listens, if there is one. -/
def listener (site : Site) (choice : ℕ) : Option ℕ :=
  if (site.instances[choice]?).any Instance.listening then some choice
  else site.instances.findIdx? Instance.listening

def setInstance (site : Site) (handle : ℕ) (change : Instance → Instance) : Site :=
  { site with instances := site.instances.modify handle change }

def dial (site : Site) (opener : Opener) (choice : ℕ) : Except IoError (Site × ℕ) :=
  match site.listener choice with
  | some handle => .ok (site.setInstance handle fun found => { found with opener }, handle)
  | none =>
    if ∃ found ∈ site.instances, found.phase ≠ .gone then
      .error ⟨.other, some ERROR_PIPE_BUSY, "All pipe instances are busy. (os error 231)"⟩
    else .error ⟨.notFound, some ERROR_FILE_NOT_FOUND,
      "The system cannot find the file specified. (os error 2)"⟩

def closeHandle (site : Site) (handle : ℕ) : Site :=
  site.setInstance handle fun found => { found with phase := .closing }

end Site

/-- A system call may fail for a reason outside the pipe. -/
def attempt {α : Type} (answer : Except IoError α) : Option IoError → Except IoError α
  | some err => .error err
  | none => answer

variable (address : String)

/-! ### Binding -/

def bindStart (site : Site) (d : ℕ) : Except IoError Unit → Site
  | .error err => site.set d (.failed (.io err))
  | .ok () => site.set d (.creating ⟨site.now + BIND_LINGER_BUDGET, none⟩)

/-- The name is asked for an answer until it gave one. -/
def created (site : Site) (d : ℕ) (locals : Binding) : Except IoError (Site × ℕ) → Site
  | .ok (after, handle) =>
    (after.emit address d .instanceCreated 0 true none).set d
      (.live ⟨some handle, 0⟩ (.returned none))
  | .error err =>
    let site := site.emit address d .instanceCreated 0 false (some err)
    if err.rawOsError = some ERROR_ACCESS_DENIED then
      site.set d (if locals.answeredAt.isNone then .probing locals else .judging locals)
    else site.set d (.failed (.io err))

def probed (site : Site) (d : ℕ) (locals : Binding) : Except IoError (Site × ℕ) → Site
  | .ok (after, _) => after.set d (.judging { locals with answeredAt := some site.now })
  | .error _ => site.set d (.judging locals)

def judged (site : Site) (d : ℕ) (locals : Binding) : Site :=
  if locals.answeredAt.any fun answered => BIND_LIVENESS_CONFIRMATION ≤ site.now - answered then
    site.set d (.failed (.alreadyRunning address))
  else if locals.deadline ≤ site.now then
    site.set d (.failed (.io ⟨.addrInUse, none,
      s!"{address} still has instances after {BIND_LINGER_BUDGET / 1000}s and no daemon could be" ++
        "                                  confirmed on it"⟩))
  else site.set d (.sleeping locals (site.now + BIND_RETRY_INTERVAL))

/-! ### Accepting -/

def noPending : IoError := ⟨.other, none, "named pipe endpoint has no pending instance"⟩

def acceptStart (site : Site) (d : ℕ) (endpoint : Endpoint) : Site :=
  match endpoint.pending with
  | none => (site.emit address d .acceptFailed endpoint.generation false (some noPending)).set d
      (.live endpoint (.returned (some (.error noPending))))
  | some _ => (site.emit address d .connectWaitStarted endpoint.generation true none).set d
      (.live endpoint .connecting)

def connected (site : Site) (d : ℕ) (endpoint : Endpoint) : Option IoError → Option Site
  | some err => some ((site.emit address d .acceptFailed endpoint.generation true (some err)).set d
      (.live endpoint (.returned (some (.error err)))))
  | none =>
    match endpoint.pending.bind (site.instances[·]?) with
    | some ⟨_, _, some _⟩ =>
      some ((site.emit address d .connectCompleted endpoint.generation true none).set d
        (.live endpoint .yielding))
    | _ => none

/-- The replacement is there before the connected instance is taken. -/
def replaced (site : Site) (d : ℕ) (endpoint : Endpoint) (connected : ℕ) :
    Except IoError (Site × ℕ) → Site
  | .error err =>
    let site := site.emit address d .acceptFailed endpoint.generation true (some err)
    site.set d (.live endpoint (.returned (some (.error
      ⟨err.kind, none, s!"cannot create a replacement pipe instance: {err.message}"⟩))))
  | .ok (after, next) =>
    let site := after.emit address d .replacementCreated (endpoint.generation + 1) true none
    let site := site.emit address d .connectionHandedOff endpoint.generation true none
    ({ site with streams := site.streams ++ [⟨d, connected⟩] } : Site).set d
      (.live ⟨some next, endpoint.generation + 1⟩ (.returned (some (.ok connected))))

/-! ### Connecting -/

def opened (site : Site) (c deadline : ℕ) : Except IoError (Site × ℕ) → Site
  | .ok (after, handle) => after.setClient c (.idle (some (.ok handle)))
  | .error err =>
    if err.rawOsError = some ERROR_PIPE_BUSY then
      if deadline ≤ site.now then
        site.setClient c (.idle (some (.error (.io ⟨.timedOut, none,
          s!"every instance of {address} stayed busy for {BUSY_WAIT_BUDGET / 1000}s; " ++
            "a daemon is listening but not accepting"⟩))))
      else site.setClient c (.sleeping deadline (site.now + BUSY_RETRY_INTERVAL))
    else if err.kind = .notFound then site.setClient c (.idle (some (.error (.notRunning address))))
    else site.setClient c (.idle (some (.error (.io err))))

/-- The calls of a daemon's `bind`, `accept` and drop and of a client's `connect`, the futures
dropped at an await, the streams dropped, and what time and the system do. -/
inductive Action
  | tick (elapsed : ℕ)
  | bind (d : ℕ) (sid : Except IoError Unit)
  | next (d : ℕ) (failure : Option IoError) (choice : ℕ)
  | accept (d : ℕ)
  | cancel (d : ℕ)
  | drop (d : ℕ)
  | finish (handle : ℕ)
  | teardown (handle : ℕ)
  | connect (c : ℕ)
  | dial (c : ℕ) (failure : Option IoError) (choice : ℕ)

def stepNext (site : Site) (d : ℕ) (failure : Option IoError) (choice : ℕ) : Option Site :=
  match site.daemons d with
  | .creating locals =>
    some (created address site d locals (attempt (site.create d true) failure))
  | .probing locals => some (probed site d locals (attempt (site.dial (.probe d) choice) failure))
  | .judging locals => some (judged address site d locals)
  | .sleeping locals wake =>
    if wake ≤ site.now then some (site.set d (.creating locals)) else none
  | .live endpoint .connecting => connected address site d endpoint failure
  | .live endpoint .yielding => do
    let pending ← endpoint.pending
    let started := site.emit address d .replacementCreateStarted endpoint.generation true none
    some (replaced address started d endpoint pending (attempt (started.create d false) failure))
  | .dropping (some pending) => some ((site.closeHandle pending).set d .closed)
  | .dropping none => some (site.set d .closed)
  | .live _ (.returned _) | .unbound | .failed _ | .closed => none

def step (site : Site) : Action → Option Site
  | .tick elapsed => some { site with now := site.now + elapsed }
  | .bind d sid =>
    match site.daemons d with
    | .unbound => some (bindStart site d sid)
    | _ => none
  | .next d failure choice => stepNext address site d failure choice
  | .accept d =>
    match site.daemons d with
    | .live endpoint (.returned _) => some (acceptStart address site d endpoint)
    | _ => none
  | .cancel d =>
    match site.daemons d with
    | .live endpoint .connecting | .live endpoint .yielding =>
      some (site.set d (.live endpoint (.returned none)))
    | _ => none
  | .drop d =>
    match site.daemons d with
    | .live endpoint (.returned _) =>
      some ((site.emit address d .endpointClosed endpoint.generation
        endpoint.pending.isSome none).set d (.dropping endpoint.pending))
    | _ => none
  | .finish handle =>
    if (∃ stream ∈ site.streams, stream.handle = handle) ∧
        (site.instances[handle]?).any (fun found => found.phase = .held) then
      some (site.closeHandle handle)
    else none
  | .teardown handle =>
    if (site.instances[handle]?).any fun found => found.phase = .closing then
      some (site.setInstance handle fun found => { found with phase := .gone })
    else none
  | .connect c =>
    match site.clients c with
    | .idle _ => some (site.setClient c (.opening (site.now + BUSY_WAIT_BUDGET)))
    | _ => none
  | .dial c failure choice =>
    match site.clients c with
    | .opening deadline =>
      some (opened address site c deadline (attempt (site.dial (.client c) choice) failure))
    | .sleeping deadline wake =>
      if wake ≤ site.now then some (site.setClient c (.opening deadline)) else none
    | .idle _ => none

/-- Nothing under the name, no daemon started and no client. -/
def system : System Site Action where
  init site := site.instances = [] ∧ site.streams = [] ∧ (∀ d, site.daemons d = .unbound) ∧
    (∀ c, site.clients c = .idle none) ∧ ∀ d, site.trace d = []
  step := step address

end MehoyRuntime.Transport.Pipe
