import MehoyRuntime.Lib.Slots
import MehoyRuntime.Runtime.Vocabulary
import MehoyRuntime.Stream.Wire
import MehoyRuntime.Worker.Process

/-!
# Starting a backend

`LlamaCppBackend::start` one step at a time, among other processes that listen where and
answer what they like. One process at a time listens on a loopback port. What the call
learns about its child and its channel is what it is answered.
-/

namespace MehoyRuntime.Backend
open TransitionSystem Worker
open MehoyRuntime.Runtime (BackendError BackendIdentity)

/-! ### Health -/

inductive StartupPhase
  | waitingForEndpoint
  | loadingModel
  | backendReady
  deriving DecidableEq, Repr

def StartupPhase.display : StartupPhase → String
  | .waitingForEndpoint => "waiting for endpoint"
  | .loadingModel => "loading model"
  | .backendReady => "backend ready"

inductive CredentialState
  | accepted
  | refused (status : ℕ)
  deriving DecidableEq, Repr

inductive Readiness
  | backendReady
  | inferenceVerified
  deriving DecidableEq, Repr

inductive HealthError
  | rejected (status : ℕ)
  | transport (detail : String)
  deriving DecidableEq, Repr

/-- A status with its reason, as far as a health check is refused with one. -/
def statusText : ℕ → String
  | 401 => "401 Unauthorized"
  | 403 => "403 Forbidden"
  | status => toString status

def HealthError.display : HealthError → String
  | .rejected status => s!"backend health returned {statusText status}, which is terminal"
  | .transport detail => s!"backend health request failed: {detail}"

def phaseForStatus : ℕ → Except HealthError StartupPhase
  | 200 => .ok .backendReady
  | 503 => .ok .loadingModel
  | 401 => .error (.rejected 401)
  | 403 => .error (.rejected 403)
  | _ => .ok .loadingModel

/-- The answer is `none` where the budget of one request elapsed. -/
def probe (answer : Option (Except HealthError ℕ)) : Except HealthError StartupPhase :=
  match answer.map (· >>= phaseForStatus) with
  | some (.error (.transport _)) | none => .ok .waitingForEndpoint
  | some other => other

def probeCredential : Option (Except HealthError ℕ) → Except HealthError CredentialState
  | none => .error (.transport "credential check timed out")
  | some (.error err) => .error err
  | some (.ok status) => .ok (if Stream.isSuccess status then .accepted else .refused status)

/-! ### Starting -/

inductive Party
  | runtime
  | child
  | other (pid : ℕ)
  deriving DecidableEq, Repr

structure RunningBackend where
  handle : WorkerHandle
  channel : ℕ
  identity : Option BackendIdentity
  readiness : Readiness

/-- Where a start is. The channel is its port; `peer` is who accepted the connection. -/
inductive Point
  | identifying
  | reserving
  | releasing (channel : ℕ)
  | drawing (channel : ℕ)
  | writing (channel : ℕ)
  | spawning (channel : ℕ)
  | watching (channel : ℕ) (handle : WorkerHandle)
  | probing (channel : ℕ) (handle : WorkerHandle)
  | asked (channel : ℕ) (handle : WorkerHandle) (peer : Party)
  | checking (channel : ℕ) (handle : WorkerHandle)
  | questioned (channel : ℕ) (handle : WorkerHandle) (peer : Party)
  | returned (result : Except BackendError RunningBackend)

/-- A start among the processes around it: the child is `none` before it is spawned, and
`some none` as long as it runs. -/
structure Start where
  identity : Option BackendIdentity
  listeners : ℕ → Option Party
  child : Option (Option ExitStatus)
  printed : String
  point : Point

/-- The steps of the call, with what each is answered. -/
inductive Answer
  | identified (identity : Option BackendIdentity)
  | reserved (port : Except IoError ℕ)
  | released
  | drawn (secret : Except IoError Unit)
  | written (file : Except IoError Unit)
  | spawned (pid : Except IoError UInt32)
  | watched (failure : Option IoError)
  | connected (failure : Option String) (stop : Stop)
  | answered (answer : Option (Except String ℕ)) (stop : Stop)
  | deadline (elapsed : ℕ) (termination : Termination)

/-- What the child and the other processes do. -/
inductive Event
  | prints (text : String)
  | listens (port : ℕ) (party : Party)
  | leaves (port : ℕ) (party : Party)
  | exits (status : ExitStatus)

inductive Action
  | call (answer : Answer)
  | around (event : Event)

def DEFAULT_CAPTURE_LINES : ℕ := 512

/-- The executable with the command line of the model and the channel. -/
structure LlamaCppBackend where
  executable : String
  commandLine : ℕ → List String

namespace LlamaCppBackend
variable (backend : LlamaCppBackend) (id : UInt64) (deadlines : Deadlines) (seconds : ℕ → String)

def workerSpec (channel : ℕ) : WorkerSpec where
  id := id
  program := backend.executable
  args := backend.commandLine channel
  deadlines := deadlines
  captureLines := DEFAULT_CAPTURE_LINES
  stop := .terminate

/-- What `wait_ready_with` returned. -/
def waited (s : Start) (channel : ℕ) (ready : Return WorkerReady) : Point :=
  match ready.result with
  | .ok _ => .checking channel ready.handle
  | .error source => .returned (.error (.worker (source.display seconds) s.identity s.printed))

/-- The loop that waits for readiness ends before its deadline. -/
def settled (s : Start) (channel : ℕ) (handle : WorkerHandle)
    (outcome : Except WorkerError WorkerReady) : Point :=
  waited seconds s channel
    (handle.started (some outcome) 0 ⟨.ok none, none, .ok (), .ok none, none⟩)

/-- One turn of the loop up to its look at the child. -/
def watched (s : Start) (channel : ℕ) (handle : WorkerHandle)
    (answer : Except IoError (Option ExitStatus)) : Point :=
  match handle.child with
  | none => waited seconds s channel ⟨.error (.io "worker has no process"), handle⟩
  | some child =>
    match child.tryWait answer with
    | (.error err, child) =>
      settled seconds s channel { handle with child := some child } (.error (.io err))
    | (.ok (some status), child) =>
      settled seconds s channel { handle with child := some child }
        (.error (.exitedDuringStartup status.code))
    | (.ok none, child) => .probing channel { handle with child := some child }

/-- The turn goes on with what the health check found. -/
def probed (s : Start) (channel : ℕ) (handle : WorkerHandle)
    (answer : Option (Except HealthError ℕ)) : Point :=
  match probe answer with
  | .ok .backendReady =>
    settled seconds s channel handle (.ok ⟨StartupPhase.backendReady.display⟩)
  | .ok _ => .watching channel handle
  | .error err => settled seconds s channel handle (.error (.io err.display))

def describeLeak : Except WorkerError WorkerExit → String
  | .ok _ => ""
  | .error err => s!"; the worker could not be stopped and may still be running: {err.display seconds}"

/-- The end of `start`. -/
def checked (s : Start) (channel : ℕ) (handle : WorkerHandle) (stop : Stop)
    (answer : Option (Except HealthError ℕ)) : Except BackendError RunningBackend :=
  match probeCredential answer with
  | .ok .accepted => .ok ⟨handle, channel, s.identity, .backendReady⟩
  | .ok (.refused status) =>
    .error (.rejected (s!"the backend refused the runtime's own credential with status {status}; " ++
      s!"it is serving but unusable{describeLeak seconds (handle.shutdown stop).result}"))
  | .error err =>
    .error (.rejected (s!"cannot confirm the backend accepts its credential: {err.display}" ++
      describeLeak seconds (handle.shutdown stop).result))

/-- A connection that nobody accepts, or that fails. -/
def unreached (failure : Option String) : Option (Except HealthError ℕ) :=
  some (.error (.transport (failure.getD "Connection refused (os error 111)")))

def transported : Option (Except String ℕ) → Option (Except HealthError ℕ) :=
  Option.map fun answer =>
    match answer with
    | .ok status => .ok status
    | .error detail => .error (.transport detail)

/-- A connection attempt reaches whoever listens on the port. -/
def reached (s : Start) (channel : ℕ) : Option String → Option Party
  | some _ => none
  | none => s.listeners channel

def moveTo (s : Start) (point : Point) : Start := { s with point }

def call (s : Start) (answer : Answer) : Option Start :=
  match s.point, answer with
  | .identifying, .identified identity => some { s with identity, point := .reserving }
  | .reserving, .reserved (.error err) => some (moveTo s (.returned (.error (.channel err))))
  | .reserving, .reserved (.ok port) =>
    if s.listeners port = none then
      some { s with
        listeners := Function.update s.listeners port (some .runtime)
        point := .releasing port }
    else none
  | .releasing channel, .released =>
    some { s with listeners := Function.update s.listeners channel none, point := .drawing channel }
  | .drawing _, .drawn (.error err) => some (moveTo s (.returned (.error (.channel err))))
  | .drawing channel, .drawn (.ok ()) => some (moveTo s (.writing channel))
  | .writing _, .written (.error err) => some (moveTo s (.returned (.error (.channel err))))
  | .writing channel, .written (.ok ()) => some (moveTo s (.spawning channel))
  | .spawning channel, .spawned pid =>
    match spawn (backend.workerSpec id deadlines channel) pid with
    | .error source =>
      some (moveTo s (.returned (.error (.worker (source.display seconds) s.identity ""))))
    | .ok handle => some { s with child := some none, point := .watching channel handle }
  | .watching channel handle, .watched failure =>
    s.child.map fun exited =>
      moveTo s (watched seconds s channel handle (failure.elim (.ok exited) .error))
  | .probing channel handle, .connected failure _ =>
    match reached s channel failure with
    | some peer => some (moveTo s (.asked channel handle peer))
    | none => some (moveTo s (probed seconds s channel handle (unreached failure)))
  | .asked channel handle _, .answered answer _ =>
    some (moveTo s (probed seconds s channel handle (transported answer)))
  | .watching channel handle, .deadline elapsed termination
  | .probing channel handle, .deadline elapsed termination
  | .asked channel handle _, .deadline elapsed termination =>
    some (moveTo s (waited seconds s channel (handle.started none elapsed termination)))
  | .checking channel handle, .connected failure stop =>
    match reached s channel failure with
    | some peer => some (moveTo s (.questioned channel handle peer))
    | none =>
      some (moveTo s (.returned (checked seconds s channel handle stop (unreached failure))))
  | .questioned channel handle _, .answered answer stop =>
    some (moveTo s (.returned (checked seconds s channel handle stop (transported answer))))
  | _, _ => none

def around (s : Start) : Event → Option Start
  | .prints text => if s.child.isSome then some { s with printed := s.printed ++ text } else none
  | .listens port party =>
    if s.listeners port = none ∧ party ≠ .runtime ∧ (party = .child → s.child = some none) then
      some { s with listeners := Function.update s.listeners port (some party) }
    else none
  | .leaves port party =>
    if s.listeners port = some party ∧ party ≠ .runtime then
      some { s with listeners := Function.update s.listeners port none }
    else none
  | .exits status =>
    if s.child = some none then
      some { s with
        child := some (some status)
        listeners := fun port => if s.listeners port = some .child then none else s.listeners port }
    else none

/-- The moment of the return is the last. -/
def step (s : Start) : Action → Option Start
  | .call answer => call backend id deadlines seconds s answer
  | .around event =>
    match s.point with
    | .returned _ => none
    | _ => around s event

/-- At the beginning only others listen. -/
def system : System Start Action where
  init s := s.point = .identifying ∧ s.child = none ∧ s.printed = "" ∧
    ∀ port party, s.listeners port = some party → ∃ pid, party = .other pid
  step := backend.step id deadlines seconds

/-- The child runs, and it is the one that listens on the channel. -/
def Bound (s : Start) (running : RunningBackend) : Prop :=
  s.child = some none ∧ s.listeners running.channel = some .child

/-- In the runs every step of which meets `ok`, a start that returned `Ok` has its child on
the channel. -/
def NeverMisbinds (ok : Start → Action → Prop) : Prop :=
  ∀ s, ReachableWhile (system backend id deadlines seconds) ok s →
    ∀ running, s.point = .returned (.ok running) → Bound s running

/-- The credential check reaches no other process, and while it is answered the child
neither ends nor gives up its socket. -/
def undisturbed (s : Start) (action : Action) : Bool :=
  match s.point, action with
  | .checking channel _, .call (.connected _ _) =>
    match s.listeners channel with
    | some (.other _) => false
    | _ => true
  | .questioned channel _ _, .around (.leaves port .child) => port ≠ channel
  | .questioned _ _ _, .around (.exits _) => false
  | _, _ => true

def Undisturbed (s : Start) (action : Action) : Prop := undisturbed s action = true

/-! ### What holds of every start -/

structure Inv (s : Start) : Prop where
  runtime : ∀ port, s.listeners port = some .runtime → s.point = .releasing port
  child : ∀ port, s.listeners port = some .child → s.child = some none
  questioned : ∀ channel handle peer, s.point = .questioned channel handle peer →
    s.listeners channel = some .child
  returned : ∀ running, s.point = .returned (.ok running) → Bound s running

/-- Points with nothing to hold at them. -/
def calm : Point → Bool
  | .questioned .. | .returned (.ok _) => false
  | _ => true

variable {backend id deadlines seconds} {s s' : Start} {point : Point} {channel : ℕ}
  {handle : WorkerHandle}

theorem questioned_of_calm (hcalm : calm point = true) {peer : Party} {P : Prop}
    (h : point = .questioned channel handle peer) : P := by
  rw [h] at hcalm
  cases hcalm

theorem returned_of_calm (hcalm : calm point = true) {running : RunningBackend} {P : Prop}
    (h : point = .returned (.ok running)) : P := by
  rw [h] at hcalm
  cases hcalm

theorem inv_moveTo (h : Inv s) (hfrom : ∀ port, s.point ≠ .releasing port) (hcalm : calm point = true) :
    Inv (moveTo s point) where
  runtime := fun port hport => absurd (h.runtime port hport) (hfrom port)
  child := h.child
  questioned := fun _ _ _ => questioned_of_calm hcalm
  returned := fun _ => returned_of_calm hcalm

theorem calm_waited (ready : Return WorkerReady) : calm (waited seconds s channel ready) = true := by
  unfold waited
  split <;> rfl

theorem calm_watched (answer : Except IoError (Option ExitStatus)) :
    calm (watched seconds s channel handle answer) = true := by
  unfold watched
  split
  · exact calm_waited _
  · split
    · exact calm_waited _
    · exact calm_waited _
    · rfl

theorem calm_probed (answer : Option (Except HealthError ℕ)) :
    calm (probed seconds s channel handle answer) = true := by
  unfold probed
  split
  · exact calm_waited _
  · rfl
  · exact calm_waited _

theorem checked_ok {answer : Option (Except HealthError ℕ)} {stop : Stop} {running : RunningBackend}
    (h : checked seconds s channel handle stop answer = .ok running) :
    running.channel = channel ∧ ∃ status, answer = some (.ok status) := by
  unfold checked at h
  split at h
  · rename_i hprobe
    obtain rfl := Except.ok.inj h
    refine ⟨rfl, ?_⟩
    cases answer with
    | none => cases hprobe
    | some answer =>
      cases answer with
      | error err => cases hprobe
      | ok status => exact ⟨status, rfl⟩
  · cases h
  · cases h

theorem inv_returned {answer : Option (Except HealthError ℕ)} {stop : Stop} (h : Inv s)
    (hfrom : ∀ port, s.point ≠ .releasing port)
    (hbound : ∀ status, answer = some (.ok status) → s.listeners channel = some .child) :
    Inv (moveTo s (.returned (checked seconds s channel handle stop answer))) where
  runtime := fun port hport => absurd (h.runtime port hport) (hfrom port)
  child := h.child
  questioned := by
    rintro channel handle peer hpoint
    cases hpoint
  returned := by
    rintro running hpoint
    obtain ⟨rfl, status, hstatus⟩ := checked_ok (Point.returned.inj hpoint)
    exact ⟨h.child _ (hbound status hstatus), hbound status hstatus⟩

theorem child_listens {port p : ℕ} {v : Option Party} (h : Inv s)
    (hv : v = some .child → s.child = some none)
    (hp : Function.update s.listeners port v p = some .child) : s.child = some none := by
  rcases Slots.update_cases hp with ⟨-, hnew⟩ | ⟨-, hold⟩
  · exact hv hnew
  · exact h.child p hold

/-- Only a start between its reservation and the release listens itself. -/
theorem no_runtime (h : Inv s) (hfrom : ∀ port, s.point ≠ .releasing port) (port : ℕ) :
    s.listeners port ≠ some .runtime :=
  fun hport => hfrom port (h.runtime port hport)

theorem inv_reserved {port : ℕ} (h : Inv s) (hfrom : ∀ port, s.point ≠ .releasing port) :
    Inv { s with
      listeners := Function.update s.listeners port (some .runtime)
      point := .releasing port } where
  runtime := by
    intro p hp
    rcases Slots.update_cases hp with ⟨rfl, -⟩ | ⟨-, hold⟩
    · rfl
    · exact absurd hold (no_runtime h hfrom p)
  child := fun _ => child_listens h nofun
  questioned := fun _ _ _ => questioned_of_calm rfl
  returned := fun _ => returned_of_calm rfl

theorem inv_released (h : Inv s) (hfrom : s.point = .releasing channel) :
    Inv { s with listeners := Function.update s.listeners channel none, point := .drawing channel } where
  runtime := by
    intro p hp
    rcases Slots.update_cases hp with ⟨-, hv⟩ | ⟨hne, hold⟩
    · cases hv
    · have hreleasing := h.runtime p hold
      rw [hfrom] at hreleasing
      exact absurd (Point.releasing.inj hreleasing).symm hne
  child := fun _ => child_listens h nofun
  questioned := fun _ _ _ => questioned_of_calm rfl
  returned := fun _ => returned_of_calm rfl

theorem inv_spawned (h : Inv s) (hfrom : ∀ port, s.point ≠ .releasing port) :
    Inv { s with child := some none, point := .watching channel handle } where
  runtime := fun port hport => absurd hport (no_runtime h hfrom port)
  child := fun _ _ => rfl
  questioned := fun _ _ _ => questioned_of_calm rfl
  returned := fun _ => returned_of_calm rfl

theorem inv_identified (h : Inv s) (hfrom : ∀ port, s.point ≠ .releasing port)
    (identity : Option BackendIdentity) : Inv { s with identity, point := .reserving } where
  runtime := fun port hport => absurd hport (no_runtime h hfrom port)
  child := h.child
  questioned := fun _ _ _ => questioned_of_calm rfl
  returned := fun _ => returned_of_calm rfl

/-- The credential check reaches the child, where it reaches anyone. -/
theorem inv_questioned {failure : Option String} {stop : Stop} {peer : Party} (h : Inv s)
    (hfrom : s.point = .checking channel handle)
    (hok : Undisturbed s (.call (.connected failure stop)))
    (hreached : reached s channel failure = some peer) :
    Inv (moveTo s (.questioned channel handle peer)) := by
  have hnone : ∀ port, s.listeners port ≠ some .runtime := no_runtime h (by simp [hfrom])
  have hpeer : s.listeners channel = some peer := by
    cases failure with
    | none => exact hreached
    | some detail => cases hreached
  have hchild : s.listeners channel = some .child := by
    simp only [Undisturbed, undisturbed, hfrom, hpeer] at hok
    cases peer with
    | child => exact hpeer
    | runtime => exact absurd hpeer (hnone channel)
    | other pid => cases hok
  refine ⟨fun port hport => absurd hport (hnone port), h.child, ?_, ?_⟩
  · rintro channel' handle' peer' hpoint
    cases hpoint
    exact hchild
  · rintro running hpoint
    cases hpoint

theorem inv_call {answer : Answer} (h : Inv s) (hok : Undisturbed s (.call answer))
    (hstep : call backend id deadlines seconds s answer = some s') : Inv s' := by
  unfold call at hstep
  split at hstep
  case h_1 identity hfrom =>
    cases hstep
    exact inv_identified h (by simp [hfrom]) identity
  case h_2 err hfrom | h_5 channel err hfrom | h_7 channel err hfrom | h_6 channel hfrom | h_8 channel hfrom =>
    cases hstep
    exact inv_moveTo h (by simp [hfrom]) rfl
  case h_3 port hfrom =>
    split at hstep
    · cases hstep
      exact inv_reserved h (by simp [hfrom])
    · cases hstep
  case h_4 channel hfrom =>
    cases hstep
    exact inv_released h hfrom
  case h_9 channel pid hfrom =>
    split at hstep
    · cases hstep
      exact inv_moveTo h (by simp [hfrom]) rfl
    · cases hstep
      exact inv_spawned h (by simp [hfrom])
  case h_10 channel handle failure hfrom =>
    obtain ⟨exited, -, rfl⟩ := Option.map_eq_some_iff.mp hstep
    exact inv_moveTo h (by simp [hfrom]) (calm_watched _)
  case h_11 channel handle failure stop hfrom =>
    split at hstep
    · cases hstep
      exact inv_moveTo h (by simp [hfrom]) rfl
    · cases hstep
      exact inv_moveTo h (by simp [hfrom]) (calm_probed _)
  case h_12 channel handle peer answer stop hfrom =>
    cases hstep
    exact inv_moveTo h (by simp [hfrom]) (calm_probed _)
  case h_13 channel handle elapsed t hfrom | h_14 channel handle elapsed t hfrom =>
    cases hstep
    exact inv_moveTo h (by simp [hfrom]) (calm_waited _)
  case h_15 channel handle peer elapsed t hfrom =>
    cases hstep
    exact inv_moveTo h (by simp [hfrom]) (calm_waited _)
  case h_16 channel handle failure stop hfrom =>
    split at hstep
    · cases hstep
      exact inv_questioned h hfrom hok ‹_›
    · cases hstep
      exact inv_returned h (by simp [hfrom]) fun status hstatus => by cases hstatus
  case h_17 channel handle peer answer stop hfrom =>
    cases hstep
    exact inv_returned h (by simp [hfrom]) fun _ _ => h.questioned channel handle peer hfrom
  case h_18 => cases hstep

theorem inv_listeners {port : ℕ} {v : Option Party} (h : Inv s) (hruntime : v ≠ some .runtime)
    (hchild : v = some .child → s.child = some none)
    (hrunning : ∀ running, s.point ≠ .returned (.ok running))
    (hchecked : ∀ handle peer, s.point ≠ .questioned port handle peer) :
    Inv { s with listeners := Function.update s.listeners port v } where
  runtime := by
    intro p hp
    rcases Slots.update_cases hp with ⟨-, hnew⟩ | ⟨-, hold⟩
    · exact absurd hnew hruntime
    · exact h.runtime p hold
  child := fun _ => child_listens h hchild
  questioned := by
    intro channel handle peer hpoint
    have hne : channel ≠ port := by
      rintro rfl
      exact hchecked handle peer hpoint
    exact (Function.update_of_ne hne ..).trans (h.questioned channel handle peer hpoint)
  returned := fun running hpoint => absurd hpoint (hrunning running)

/-- Of what happens around the call, only the child's going could break a check. -/
theorem inv_around {event : Event} (h : Inv s) (hok : Undisturbed s (.around event))
    (hreturned : ∀ result, s.point ≠ .returned result) (hstep : around s event = some s') : Inv s' := by
  have hrunning : ∀ {running : RunningBackend}, s.point ≠ .returned (.ok running) :=
    fun hpoint => hreturned _ hpoint
  unfold around at hstep
  split at hstep
  case h_1 text =>
    split at hstep
    all_goals cases hstep
    exact ⟨h.runtime, h.child, h.questioned, fun running hpoint => absurd hpoint hrunning⟩
  case h_2 port party =>
    split at hstep
    all_goals cases hstep
    rename_i hlistens
    obtain ⟨hfree, hparty, halive⟩ := hlistens
    refine inv_listeners h (fun hv => hparty (Option.some.inj hv))
      (fun hv => halive (Option.some.inj hv)) (fun _ => hrunning) ?_
    intro handle peer hpoint
    have hheld := h.questioned port handle peer hpoint
    rw [hfree] at hheld
    cases hheld
  case h_3 port party =>
    split at hstep
    all_goals cases hstep
    rename_i hleaves
    refine inv_listeners h nofun nofun (fun _ => hrunning) ?_
    intro handle peer hpoint
    obtain rfl : party = .child :=
      Option.some.inj (hleaves.1.symm.trans (h.questioned port handle peer hpoint))
    simp [Undisturbed, undisturbed, hpoint] at hok
  case h_4 status =>
    split at hstep
    all_goals cases hstep
    refine ⟨?_, ?_, ?_, fun running hpoint => absurd hpoint hrunning⟩
    · intro port hport
      dsimp only at hport
      split at hport
      · cases hport
      · exact h.runtime port hport
    · intro port hport
      dsimp only at hport
      split at hport
      · cases hport
      · exact absurd hport ‹_›
    · intro channel handle peer hpoint
      have hpoint : s.point = .questioned channel handle peer := hpoint
      simp only [Undisturbed, undisturbed, hpoint, Bool.false_eq_true] at hok

theorem inv_step {action : Action} (h : Inv s) (hok : Undisturbed s action)
    (hstep : step backend id deadlines seconds s action = some s') : Inv s' := by
  cases action with
  | call answer => exact inv_call h hok hstep
  | around event =>
    simp only [step] at hstep
    split at hstep
    · cases hstep
    · rename_i hreturned
      exact inv_around h hok hreturned hstep

theorem neverMisbinds_undisturbed (backend : LlamaCppBackend) (id : UInt64) (deadlines : Deadlines)
    (seconds : ℕ → String) : NeverMisbinds backend id deadlines seconds Undisturbed := by
  intro s hs
  refine (hs.invariant (I := Inv) ?_ fun _ _ _ _ h hok hstep => inv_step h hok hstep).returned
  rintro first ⟨hpoint, -, -, hothers⟩
  refine ⟨?_, ?_, ?_, ?_⟩
  · intro port hport
    obtain ⟨pid, hpid⟩ := hothers port _ hport
    cases hpid
  · intro port hport
    obtain ⟨pid, hpid⟩ := hothers port _ hport
    cases hpid
  · intro channel handle peer hquestioned
    rw [hpoint] at hquestioned
    cases hquestioned
  · intro running hreturned
    rw [hpoint] at hreturned
    cases hreturned

/-! ### Two starts -/

def sampleBackend : LlamaCppBackend := ⟨"llama-server", fun port => ["--port", toString port]⟩

def idle : Start := ⟨none, fun _ => none, none, "", .identifying⟩

theorem idle_init : (system sampleBackend 1 .default toString).init idle := ⟨rfl, rfl, rfl, nofun⟩

def calmStop : Stop := ⟨none, ⟨.ok none, none, .ok (), .ok none, none⟩⟩

/-- A start whose channel `party` takes before the child is looked at, and answers both
requests with success. -/
def taken (party : Party) : List Action :=
  [.call (.identified none), .call (.reserved (.ok 40000)), .call .released, .call (.drawn (.ok ())),
    .call (.written (.ok ())), .call (.spawned (.ok 4242)), .around (.listens 40000 party),
    .call (.watched none), .call (.connected none calmStop), .call (.answered (some (.ok 200)) calmStop),
    .call (.connected none calmStop), .call (.answered (some (.ok 200)) calmStop)]

theorem neverMisbinds_child :
    ∃ s running, ReachableWhile (system sampleBackend 1 .default toString) Undisturbed s ∧
      s.point = .returned (.ok running) ∧ running.channel = 40000 ∧ Bound s running := by
  obtain ⟨s, running, hrun, hreturned, hchannel⟩ : ∃ s running,
      (system sampleBackend 1 .default toString).runWhile undisturbed idle (taken .child) = some s ∧
      s.point = .returned (.ok running) ∧ running.channel = 40000 := ⟨_, _, rfl, rfl, rfl⟩
  have hreach : ReachableWhile _ Undisturbed s :=
    reachableWhile_of_run (fun _ _ h => h) (.init idle_init) hrun
  exact ⟨s, running, hreach, hreturned, hchannel,
    neverMisbinds_undisturbed sampleBackend 1 .default toString s hreach running hreturned⟩

/-- Another process takes the port, and the start returns its channel. -/
theorem neverMisbinds_other :
    ¬ NeverMisbinds sampleBackend 1 .default toString fun _ _ => True := by
  intro hclaim
  obtain ⟨s, running, hrun, hreturned, hother⟩ : ∃ s running,
      (system sampleBackend 1 .default toString).run idle (taken (.other 7)) = some s ∧
      s.point = .returned (.ok running) ∧ s.listeners running.channel = some (.other 7) :=
    ⟨_, _, rfl, rfl, rfl⟩
  have hbound := hclaim s (reachable_of_run (.init idle_init) hrun) running hreturned
  have hsame : some (Party.other 7) = some .child := hother.symm.trans hbound.2
  cases hsame

end LlamaCppBackend
end MehoyRuntime.Backend
