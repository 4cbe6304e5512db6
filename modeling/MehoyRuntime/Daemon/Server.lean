import MehoyRuntime.Daemon.Service

/-!
# The accept loop and the shutdown sequence

`serve` with the tasks of its connections, the deadline of its drain, and the clients that call
it. Which branch of a `select!` is taken, when a task is polled and when a connection breaks is
chosen by the labels.
-/

namespace MehoyRuntime.Daemon
open TransitionSystem
open MehoyRuntime.Transport.Pipe (ErrorKind IoError EndpointError)

/-- In milliseconds, as every instant here. -/
def DRAIN_DEADLINE : ℕ := 5000

def isTransient (err : IoError) : Bool :=
  err.kind = .connectionAborted || err.kind = .connectionReset || err.kind = .interrupted ||
    err.kind = .brokenPipe

/-- Where the task of a connection is. One that is told to abort may be in a poll that it still
completes, and what `join_next` returns says whether it was cancelled. -/
inductive Task
  | queued
  | running
  | aborting
  | finished (cancelled : Bool)
  | joined (cancelled : Bool)
  | refused
  deriving DecidableEq, Repr

namespace Task

/-- The set holds a task until it is joined. -/
def inSet : Task → Bool
  | .running | .aborting | .finished _ => true
  | .queued | .joined _ | .refused => false

def accepted : Task → Bool
  | .queued | .refused => false
  | .running | .aborting | .finished _ | .joined _ => true

/-- Told to abort, or cancelled for it. -/
def cut : Task → Bool
  | .aborting => true
  | .finished cancelled | .joined cancelled => cancelled
  | .queued | .running | .refused => false

/-- Still there to be polled. -/
def polled : Task → Bool
  | .running | .aborting => true
  | .queued | .finished _ | .joined _ | .refused => false

def isOver : Task → Bool
  | .finished _ | .joined _ | .refused => true
  | .queued | .running | .aborting => false

def abort : Task → Task
  | .running => .aborting
  | other => other

def refuse : Task → Task
  | .queued => .refused
  | other => other

theorem abort_refused {task : Task} (h : task.abort = .refused) : task = .refused := by
  cases task <;> first | rfl | cases h

@[simp] theorem refuse_cut (task : Task) : task.refuse.cut = task.cut := by
  cases task <;> rfl

end Task

/-- A connection with what has been written to it and not been read. -/
structure Connection where
  client : ℕ
  task : Task
  request : Option (Method × String)
  response : Option Response
  deriving DecidableEq, Repr

/-- Where `serve` is, and its `drain` in it. -/
inductive Serving
  | accepting
  | draining (deadline : ℕ)
  | joining
  | dropping
  | returned (result : Except IoError Unit)

def Serving.isReturned : Serving → Bool
  | .returned _ => true
  | .accepting | .draining _ | .joining | .dropping => false

/-- Where a call of a client is. -/
inductive ClientState
  | idle
  | connected (connection : ℕ) (call : Call)
  | awaiting (connection : ℕ) (call : Call)
  | returned (call : Call) (result : Except ClientError Answer)

/-- When the loop was left is read by statements only. -/
structure Site where
  now : ℕ
  stopping : Bool
  serving : Serving
  connections : List Connection
  clients : ℕ → ClientState
  broke : Option ℕ

namespace Site

def setClient (site : Site) (c : ℕ) (state : ClientState) : Site :=
  { site with clients := Function.update site.clients c state }

def setConnection (site : Site) (k : ℕ) (connection : Connection) : Site :=
  { site with connections := site.connections.set k connection }

def setTask (site : Site) (k : ℕ) (connection : Connection) (task : Task) : Site :=
  site.setConnection k { connection with task }

def mapTasks (site : Site) (change : Task → Task) : Site :=
  { site with
    connections := site.connections.map fun connection =>
      { connection with task := change connection.task } }

def isEmpty (site : Site) : Bool := site.connections.all fun connection => !connection.task.inSet

end Site

/-- The branches of `serve` and of `drain`. -/
inductive Branch
  | leave
  | accept (k : ℕ)
  | acceptFailed (err : IoError)
  | join (k : ℕ)
  | deadline
  | drained
  | drop

inductive Poll
  | respond
  | finish
  | cancel

/-- The steps of `raw_get` and of what is around it. -/
inductive Move
  | dial (call : Call) (failure : Option IoError)
  | send
  | receive
  | lose (detail : String)

inductive Action
  | tick (elapsed : ℕ)
  | shutdown
  | serve (branch : Branch)
  | task (k : ℕ) (poll : Poll)
  | client (c : ℕ) (move : Move)

def stepServe (site : Site) : Branch → Option Site
  | .leave =>
    match site.serving with
    | .accepting =>
      if site.stopping then
        some { site with
          broke := some site.now
          serving := if site.isEmpty then .dropping else .draining (site.now + DRAIN_DEADLINE) }
      else none
    | _ => none
  | .accept k =>
    match site.serving, site.connections[k]? with
    | .accepting, some connection =>
      if connection.task = .queued then some (site.setTask k connection .running) else none
    | _, _ => none
  | .acceptFailed err =>
    match site.serving with
    | .accepting =>
      -- The set and the endpoint are dropped with the locals of `serve`.
      if isTransient err then some site
      else some { (site.mapTasks Task.abort).mapTasks Task.refuse with
        serving := .returned (.error err) }
    | _ => none
  | .join k =>
    match site.serving, site.connections[k]? with
    | .accepting, some connection | .draining _, some connection | .joining, some connection =>
      match connection.task with
      | .finished cancelled => some (site.setTask k connection (.joined cancelled))
      | _ => none
    | _, _ => none
  | .deadline =>
    match site.serving with
    | .draining deadline =>
      if deadline ≤ site.now then some { site.mapTasks Task.abort with serving := .joining } else none
    | _ => none
  | .drained =>
    match site.serving with
    | .draining _ | .joining => if site.isEmpty then some { site with serving := .dropping } else none
    | _ => none
  | .drop =>
    match site.serving with
    | .dropping => some { site.mapTasks Task.refuse with serving := .returned (.ok ()) }
    | _ => none

section Steps
variable (ext : Externals) (address : String)

/-- What a task does with its connection. -/
def stepTask (site : Site) (k : ℕ) (connection : Connection) : Poll → Option Site
  | .respond =>
    match connection.request with
    | some (method, path) =>
      if connection.task.polled then
        some (site.setConnection k
          { connection with request := none, response := some (route ext method path) })
      else none
    | none => none
  | .finish => if connection.task.polled then some (site.setTask k connection (.finished false)) else none
  | .cancel =>
    match connection.task with
    | .aborting => some (site.setTask k connection (.finished true))
    | _ => none

def dial (site : Site) (c : ℕ) (call : Call) : Option IoError → Site
  | some err => site.setClient c (.returned call (.error (.transport (.io err))))
  | none =>
    if site.serving.isReturned then
      site.setClient c (.returned call (.error (.transport (.notRunning address))))
    else
      ({ site with connections := site.connections ++ [⟨c, .queued, none, none⟩] } : Site).setClient c
        (.connected site.connections.length call)

def send (site : Site) (c k : ℕ) (connection : Connection) (call : Call) : Site :=
  match ext.uri call.path with
  | .error detail => site.setClient c (.returned call (.error (.protocol detail)))
  | .ok path =>
    (site.setConnection k { connection with request := some (.GET, path) }).setClient c
      (.awaiting k call)

/-- A connection that is over without a response. -/
def lose (site : Site) (c : ℕ) (connection : Connection) (call : Call) (detail : String) :
    Option Site :=
  if connection.task.isOver ∧ connection.response = none then
    some (site.setClient c (.returned call (.error (.protocol detail))))
  else none

def stepClient (site : Site) (c : ℕ) (move : Move) : Option Site :=
  match site.clients c, move with
  | .idle, .dial call failure => some (dial address site c call failure)
  | .connected k call, .send =>
    (site.connections[k]?).map fun connection => send ext site c k connection call
  | .awaiting k call, .receive => do
    let connection ← site.connections[k]?
    let response ← connection.response
    some (site.setClient c (.returned call (concluded ext call response)))
  | .connected k call, .lose detail | .awaiting k call, .lose detail =>
    (site.connections[k]?).bind fun connection => lose site c connection call detail
  | _, _ => none

def step (site : Site) : Action → Option Site
  | .tick elapsed => some { site with now := site.now + elapsed }
  | .shutdown => some { site with stopping := true }
  | .serve branch => stepServe site branch
  | .task k poll => (site.connections[k]?).bind fun connection => stepTask ext site k connection poll
  | .client c move => stepClient ext address site c move

/-- The endpoint has been bound, and nobody has connected. -/
def system : System Site Action where
  init site := site.stopping = false ∧ site.serving = .accepting ∧ site.connections = [] ∧
    (∀ c, site.clients c = .idle) ∧ site.broke = none
  step := step ext address

end Steps

/-! ### What a drain leaves behind -/

def Task.settled : Task → Bool
  | .joined _ | .refused => true
  | .queued | .running | .aborting | .finished _ => false

/-- The drain has run for its whole deadline, or accepting has failed for good. -/
def Site.Overran (site : Site) : Prop :=
  (∃ instant, site.broke = some instant ∧ instant + DRAIN_DEADLINE ≤ site.now) ∨
    ∃ err, site.serving = .returned (.error err)

theorem Task.refuse_settled {task : Task} (h : task.inSet = false) : task.refuse.settled = true := by
  cases task <;> first | rfl | cases h

structure Task.Fits (site : Site) (task : Task) : Prop where
  cut : task.cut = true → site.Overran
  refused : task = .refused → site.serving.isReturned = true

/-- What is known where `serve` is. -/
def Site.Phase (site : Site) : Prop :=
  match site.serving with
  | .accepting => site.broke = none
  | .draining deadline => site.stopping = true ∧ ∃ instant, site.broke = some instant ∧
      deadline = instant + DRAIN_DEADLINE
  | .joining => site.stopping = true ∧ ∃ instant, site.broke = some instant ∧
      instant + DRAIN_DEADLINE ≤ site.now
  | .dropping => site.stopping = true ∧ ∀ connection ∈ site.connections, connection.task.inSet = false
  | .returned (.ok ()) => site.stopping = true ∧
      ∀ connection ∈ site.connections, connection.task.settled = true
  | .returned (.error err) => isTransient err = false

structure Sound (site : Site) : Prop where
  tasks : ∀ connection ∈ site.connections, connection.task.Fits site
  phase : site.Phase

variable {ext : Externals} {address : String} {site after : Site} {k c : ℕ}
  {connection : Connection}

theorem Sound.accepting (h : Sound site) (hserving : site.serving = .accepting) :
    site.broke = none := by
  have hphase := h.phase
  unfold Site.Phase at hphase
  rwa [hserving] at hphase

theorem Sound.draining {deadline : ℕ} (h : Sound site) (hserving : site.serving = .draining deadline) :
    site.stopping = true ∧
      ∃ instant, site.broke = some instant ∧ deadline = instant + DRAIN_DEADLINE := by
  have hphase := h.phase
  unfold Site.Phase at hphase
  rwa [hserving] at hphase

theorem Sound.joining (h : Sound site) (hserving : site.serving = .joining) :
    site.stopping = true ∧
      ∃ instant, site.broke = some instant ∧ instant + DRAIN_DEADLINE ≤ site.now := by
  have hphase := h.phase
  unfold Site.Phase at hphase
  rwa [hserving] at hphase

theorem Sound.dropping (h : Sound site) (hserving : site.serving = .dropping) :
    site.stopping = true ∧ ∀ connection ∈ site.connections, connection.task.inSet = false := by
  have hphase := h.phase
  unfold Site.Phase at hphase
  rwa [hserving] at hphase

theorem isEmpty_iff : site.isEmpty = true ↔
    ∀ connection ∈ site.connections, connection.task.inSet = false := by
  simp only [Site.isEmpty, List.all_eq_true, Bool.not_eq_true']

theorem Task.Fits.of_eq {site' : Site} {task : Task} (h : task.Fits site)
    (hserving : site'.serving = site.serving) (hbroke : site'.broke = site.broke)
    (hnow : site.now ≤ site'.now) : task.Fits site' := by
  constructor
  case cut =>
    intro hcut
    rcases h.cut hcut with ⟨instant, hinstant, hle⟩ | ⟨err, herr⟩
    · exact .inl ⟨instant, hbroke.trans hinstant, by omega⟩
    · exact .inr ⟨err, hserving.trans herr⟩
  case refused =>
    rw [hserving]
    exact h.refused

theorem Sound.setClient (h : Sound site) (state : ClientState) : Sound (site.setClient c state) :=
  ⟨fun connection hmem => (h.tasks connection hmem).of_eq rfl rfl (Nat.le_refl _), h.phase⟩

/-- One connection moves: out of the loop none joins the set, and what is settled stays so. -/
theorem Sound.setConnection (h : Sound site) (hk : site.connections[k]? = some connection)
    {connection' : Connection} (hfits : connection'.task.Fits site)
    (hmove : site.serving = .accepting ∨
      ((connection'.task.inSet = true → connection.task.inSet = true) ∧
        (connection.task.settled = true → connection'.task.settled = true))) :
    Sound (site.setConnection k connection') := by
  have hmem := List.mem_of_getElem? hk
  have hcases : ∀ other ∈ (site.setConnection k connection').connections,
      other ∈ site.connections ∨ other = connection' := fun other =>
    List.mem_or_eq_of_mem_set
  constructor
  case tasks =>
    intro other hother
    rcases hcases other hother with hother | rfl
    · exact (h.tasks other hother).of_eq rfl rfl (Nat.le_refl _)
    · exact hfits.of_eq rfl rfl (Nat.le_refl _)
  case phase =>
    have hphase := h.phase
    have hsame : (site.setConnection k connection').serving = site.serving := rfl
    unfold Site.Phase at hphase ⊢
    rw [hsame]
    cases hserving : site.serving with
    | accepting | draining deadline | joining =>
      rw [hserving] at hphase
      exact hphase
    | dropping =>
      rw [hserving] at hphase
      obtain ⟨hstopping, hout⟩ := hphase
      refine ⟨hstopping, fun other hother => ?_⟩
      rcases hcases other hother with hother | rfl
      · exact hout other hother
      · rcases hmove with haccepting | ⟨hin, -⟩
        · rw [hserving] at haccepting
          cases haccepting
        · have hbefore := hout connection hmem
          cases hafter : other.task.inSet with
          | false => rfl
          | true =>
            rw [hin hafter] at hbefore
            cases hbefore
    | returned result =>
      rw [hserving] at hphase
      cases result with
      | error err => exact hphase
      | ok u =>
        obtain ⟨hstopping, hsettled⟩ := hphase
        refine ⟨hstopping, fun other hother => ?_⟩
        rcases hcases other hother with hother | rfl
        · exact hsettled other hother
        · rcases hmove with haccepting | ⟨-, hkeep⟩
          · rw [hserving] at haccepting
            cases haccepting
          · exact hkeep (hsettled connection hmem)

theorem Sound.dial (h : Sound site) (hopen : site.serving.isReturned = false)
    (hqueued : connection.task = .queued) :
    Sound { site with connections := site.connections ++ [connection] } := by
  have hcases : ∀ other ∈ site.connections ++ [connection],
      other ∈ site.connections ∨ other = connection := by simp
  constructor
  case tasks =>
    intro other hother
    rcases hcases other hother with hother | rfl
    · exact (h.tasks other hother).of_eq rfl rfl (Nat.le_refl _)
    · rw [hqueued]
      constructor <;> intro h <;> cases h
  case phase =>
    have hphase := h.phase
    unfold Site.Phase at hphase ⊢
    cases hserving : site.serving with
    | accepting | draining deadline | joining =>
      rw [hserving] at hphase
      exact hphase
    | dropping =>
      rw [hserving] at hphase
      refine ⟨hphase.1, fun other hother => ?_⟩
      rcases hcases other hother with hother | rfl
      · exact hphase.2 other hother
      · rw [hqueued]
        rfl
    | returned result =>
      rw [hserving] at hopen
      cases hopen

/-! ### The steps -/

theorem task_sound (h : Sound site) {poll : Poll} (hk : site.connections[k]? = some connection)
    (hstep : stepTask ext site k connection poll = some after) : Sound after := by
  have hfits := h.tasks connection (List.mem_of_getElem? hk)
  cases poll with
  | respond =>
    simp only [stepTask] at hstep
    split at hstep
    · split at hstep <;> cases hstep
      exact h.setConnection hk hfits (.inr ⟨id, id⟩)
    · cases hstep
  | finish =>
    simp only [stepTask] at hstep
    split at hstep <;> cases hstep
    rename_i hpolled
    refine h.setConnection hk ⟨fun hcut => ?_, fun hrefused => ?_⟩ (.inr ⟨fun _ => ?_, fun hsettled => ?_⟩)
    · cases hcut
    · cases hrefused
    · cases htask : connection.task <;> rw [htask] at hpolled <;> first | rfl | cases hpolled
    · cases htask : connection.task <;> simp [htask, Task.polled, Task.settled] at hpolled hsettled
  | cancel =>
    simp only [stepTask] at hstep
    split at hstep <;> cases hstep
    rename_i htask
    refine h.setConnection hk ⟨fun _ => hfits.cut ?_, fun hrefused => ?_⟩ (.inr ⟨fun _ => ?_, fun hsettled => ?_⟩)
    · rw [htask]
      rfl
    · cases hrefused
    · rw [htask]
      rfl
    · rw [htask] at hsettled
      cases hsettled

theorem client_sound (h : Sound site) {move : Move}
    (hstep : stepClient ext address site c move = some after) : Sound after := by
  unfold stepClient at hstep
  split at hstep
  · rename_i call failure hc
    cases hstep
    unfold dial
    split
    · exact h.setClient _
    · cases hreturned : site.serving.isReturned with
      | true => exact h.setClient _
      | false => exact (h.dial hreturned rfl).setClient _
  · rename_i k call hc
    obtain ⟨connection, hk, rfl⟩ := Option.map_eq_some_iff.mp hstep
    have hfits := h.tasks connection (List.mem_of_getElem? hk)
    unfold send
    split
    · exact h.setClient _
    · rename_i path hpath
      have hsent : Sound (site.setConnection k { connection with request := some (.GET, path) }) :=
        h.setConnection hk hfits (.inr ⟨id, id⟩)
      exact hsent.setClient _
  · obtain ⟨connection, hk, hstep⟩ := Option.bind_eq_some_iff.mp hstep
    obtain ⟨response, hresponse, hstep⟩ := Option.bind_eq_some_iff.mp hstep
    cases hstep
    exact h.setClient _
  all_goals
    first
    | cases hstep
    | obtain ⟨connection, hk, hstep⟩ := Option.bind_eq_some_iff.mp hstep
      unfold lose at hstep
      split at hstep <;> cases hstep
      exact h.setClient _

/-- A change of every task on the way out of a phase. -/
theorem mem_mapTasks {change : Task → Task} {other : Connection}
    (h : other ∈ (site.mapTasks change).connections) :
    ∃ before ∈ site.connections, other.task = change before.task := by
  obtain ⟨before, hbefore, rfl⟩ := List.mem_map.mp h
  exact ⟨before, hbefore, rfl⟩

theorem uncut (h : Sound site) (hserving : site.serving = .accepting) :
    ∀ connection ∈ site.connections, connection.task.cut = false ∧ connection.task ≠ .refused := by
  have hbroke := h.accepting hserving
  intro connection hmem
  have hfits := h.tasks connection hmem
  constructor
  · cases hcut : connection.task.cut with
    | false => rfl
    | true =>
      rcases hfits.cut hcut with ⟨instant, hinstant, -⟩ | ⟨err, herr⟩
      · rw [hbroke] at hinstant
        cases hinstant
      · rw [hserving] at herr
        cases herr
  · intro hrefused
    have hreturned := hfits.refused hrefused
    rw [hserving] at hreturned
    cases hreturned

theorem leave_sound (h : Sound site) (hstep : stepServe site .leave = some after) : Sound after := by
  simp only [stepServe] at hstep
  split at hstep
  · rename_i hserving
    split at hstep <;> cases hstep
    rename_i hstopping
    have huncut := uncut h hserving
    constructor
    case tasks =>
      intro connection hmem
      obtain ⟨hcut, hrefused⟩ := huncut connection hmem
      exact ⟨fun h => absurd (hcut.symm.trans h) (by decide), fun h => absurd h hrefused⟩
    case phase =>
      cases hempty : site.isEmpty with
      | true => exact ⟨hstopping, isEmpty_iff.mp hempty⟩
      | false => exact ⟨hstopping, site.now, rfl, rfl⟩
  · cases hstep

theorem accept_sound (h : Sound site) (hstep : stepServe site (.accept k) = some after) :
    Sound after := by
  simp only [stepServe] at hstep
  split at hstep
  · rename_i connection hserving hk
    split at hstep <;> cases hstep
    refine h.setConnection hk ?_ (.inl hserving)
    constructor <;> intro h <;> cases h
  · cases hstep

theorem acceptFailed_sound {err : IoError} (h : Sound site)
    (hstep : stepServe site (.acceptFailed err) = some after) : Sound after := by
  simp only [stepServe] at hstep
  split at hstep
  · rename_i hserving
    split at hstep <;> cases hstep
    · exact h
    · rename_i htransient
      refine ⟨fun other hother => ⟨fun _ => .inr ⟨err, rfl⟩, fun _ => rfl⟩, ?_⟩
      exact eq_false_of_ne_true htransient
  · cases hstep

theorem join_sound (h : Sound site) (hstep : stepServe site (.join k) = some after) : Sound after := by
  simp only [stepServe] at hstep
  split at hstep
  case h_4 => cases hstep
  all_goals
    rename_i connection hserving hk
    have hfits := h.tasks connection (List.mem_of_getElem? hk)
    split at hstep <;> cases hstep
    rename_i cancelled htask
    rw [htask] at hfits
    refine h.setConnection hk ⟨hfits.cut, ?_⟩ (.inr ⟨?_, ?_⟩)
    · intro h
      cases h
    · intro h
      cases h
    · intro _
      rfl

theorem deadline_sound (h : Sound site) (hstep : stepServe site .deadline = some after) :
    Sound after := by
  simp only [stepServe] at hstep
  split at hstep
  · rename_i deadline hserving
    split at hstep <;> cases hstep
    rename_i hdeadline
    obtain ⟨hstopping, instant, hinstant, hsum⟩ := h.draining hserving
    have hover : instant + DRAIN_DEADLINE ≤ site.now := by omega
    constructor
    case tasks =>
      intro other hother
      obtain ⟨before, hbefore, htask⟩ := mem_mapTasks hother
      refine ⟨fun _ => .inl ⟨instant, hinstant, hover⟩, fun hrefused => ?_⟩
      rw [htask] at hrefused
      have hreturned := (h.tasks before hbefore).refused (Task.abort_refused hrefused)
      rw [hserving] at hreturned
      cases hreturned
    case phase => exact ⟨hstopping, instant, hinstant, hover⟩
  · cases hstep

/-- An empty set ends the drain. -/
theorem emptied_sound (h : Sound site) (hstopping : site.stopping = true)
    (hempty : site.isEmpty = true) (hopen : site.serving.isReturned = false) :
    Sound { site with serving := .dropping } := by
  constructor
  case tasks =>
    intro connection hmem
    have hfits := h.tasks connection hmem
    constructor
    case cut =>
      intro hcut
      rcases hfits.cut hcut with hover | ⟨err, herr⟩
      · exact .inl hover
      · rw [herr] at hopen
        cases hopen
    case refused =>
      intro hrefused
      rw [hfits.refused hrefused] at hopen
      cases hopen
  case phase => exact ⟨hstopping, isEmpty_iff.mp hempty⟩

theorem drained_sound (h : Sound site) (hstep : stepServe site .drained = some after) :
    Sound after := by
  simp only [stepServe] at hstep
  split at hstep
  · rename_i deadline hserving
    split at hstep <;> cases hstep
    rename_i hempty
    exact emptied_sound h (h.draining hserving).1 hempty (by rw [hserving]; rfl)
  · rename_i hserving
    split at hstep <;> cases hstep
    rename_i hempty
    exact emptied_sound h (h.joining hserving).1 hempty (by rw [hserving]; rfl)
  · cases hstep

theorem drop_sound (h : Sound site) (hstep : stepServe site .drop = some after) : Sound after := by
  simp only [stepServe] at hstep
  split at hstep
  · rename_i hserving
    cases hstep
    obtain ⟨hstopping, hout⟩ := h.dropping hserving
    constructor
    case tasks =>
      intro other hother
      obtain ⟨before, hbefore, htask⟩ := mem_mapTasks hother
      refine ⟨fun hcut => ?_, fun _ => rfl⟩
      rw [htask, Task.refuse_cut] at hcut
      rcases (h.tasks before hbefore).cut hcut with hover | ⟨err, herr⟩
      · exact .inl hover
      · rw [hserving] at herr
        cases herr
    case phase =>
      refine ⟨hstopping, fun other hother => ?_⟩
      obtain ⟨before, hbefore, htask⟩ := mem_mapTasks hother
      rw [htask]
      exact Task.refuse_settled (hout before hbefore)
  · cases hstep

theorem serve_sound (h : Sound site) {branch : Branch}
    (hstep : stepServe site branch = some after) : Sound after := by
  cases branch with
  | leave => exact leave_sound h hstep
  | accept k => exact accept_sound h hstep
  | acceptFailed err => exact acceptFailed_sound h hstep
  | join k => exact join_sound h hstep
  | deadline => exact deadline_sound h hstep
  | drained => exact drained_sound h hstep
  | drop => exact drop_sound h hstep

theorem step_sound (h : Sound site) {action : Action}
    (hstep : step ext address site action = some after) : Sound after := by
  cases action with
  | tick elapsed =>
    cases hstep
    refine ⟨fun connection hmem => (h.tasks connection hmem).of_eq rfl rfl (Nat.le_add_right ..), ?_⟩
    have hphase := h.phase
    unfold Site.Phase at hphase ⊢
    cases hserving : site.serving with
    | joining =>
      rw [hserving] at hphase
      obtain ⟨hstopping, instant, hinstant, hle⟩ := hphase
      exact ⟨hstopping, instant, hinstant, Nat.le_add_right_of_le hle⟩
    | accepting | draining deadline | dropping =>
      rw [hserving] at hphase
      exact hphase
    | returned result =>
      rw [hserving] at hphase
      cases result <;> exact hphase
  | shutdown =>
    cases hstep
    refine ⟨fun connection hmem => (h.tasks connection hmem).of_eq rfl rfl (Nat.le_refl _), ?_⟩
    have hphase := h.phase
    unfold Site.Phase at hphase ⊢
    cases hserving : site.serving with
    | accepting =>
      rw [hserving] at hphase
      exact hphase
    | draining deadline | joining | dropping =>
      rw [hserving] at hphase
      exact ⟨rfl, hphase.2⟩
    | returned result =>
      rw [hserving] at hphase
      cases result with
      | ok u => exact ⟨rfl, hphase.2⟩
      | error err => exact hphase
  | serve branch => exact serve_sound h hstep
  | task k poll =>
    obtain ⟨connection, hk, hstep⟩ := Option.bind_eq_some_iff.mp hstep
    exact task_sound h hk hstep
  | client c move => exact client_sound h hstep

theorem sound_of_reachable (h : Reachable (system ext address) site) : Sound site := by
  refine h.invariant (I := Sound) ?_ fun _ _ _ _ h _ hstep => step_sound h hstep
  rintro s ⟨-, hserving, hconnections, -, hbroke⟩
  constructor
  case tasks =>
    intro connection hmem
    rw [hconnections] at hmem
    cases hmem
  case phase =>
    unfold Site.Phase
    rw [hserving]
    exact hbroke

/-! ### Nothing is accepted after the loop -/

/-- The daemon has taken the connection from the endpoint. -/
def Site.accepted (site : Site) (k : ℕ) : Bool :=
  (site.connections[k]?).any fun connection => connection.task.accepted

theorem accepted_iff : site.accepted k = true ↔
    ∃ connection, site.connections[k]? = some connection ∧ connection.task.accepted = true := by
  simp [Site.accepted, Option.any_eq_true]

theorem accepted_setConnection {j : ℕ} {changed : Connection}
    (hj : site.connections[j]? = some connection)
    (hback : changed.task.accepted = true → connection.task.accepted = true)
    (h : (site.setConnection j changed).accepted k = true) : site.accepted k = true := by
  obtain ⟨connection', hk, haccepted⟩ := accepted_iff.mp h
  rcases Slots.get_set_cases hk with ⟨rfl, rfl⟩ | ⟨-, hk⟩
  · exact accepted_iff.mpr ⟨connection, hj, hback haccepted⟩
  · exact accepted_iff.mpr ⟨connection', hk, haccepted⟩

theorem accepted_mapTasks {change : Task → Task}
    (hback : ∀ task : Task, (change task).accepted = true → task.accepted = true)
    (h : (site.mapTasks change).accepted k = true) : site.accepted k = true := by
  obtain ⟨connection', hk, haccepted⟩ := accepted_iff.mp h
  simp only [Site.mapTasks, List.getElem?_map, Option.map_eq_some_iff] at hk
  obtain ⟨connection, hk, rfl⟩ := hk
  exact accepted_iff.mpr ⟨connection, hk, hback _ haccepted⟩

theorem accepted_dial (hqueued : connection.task.accepted = false)
    (h : ({ site with connections := site.connections ++ [connection] } : Site).accepted k = true) :
    site.accepted k = true := by
  obtain ⟨connection', hk, haccepted⟩ := accepted_iff.mp h
  rcases Slots.get_push_cases hk with ⟨-, rfl⟩ | hk
  · rw [hqueued] at haccepted
    cases haccepted
  · exact accepted_iff.mpr ⟨connection', hk, haccepted⟩

theorem serve_accepted (hleft : site.serving ≠ .accepting) {branch : Branch}
    (hstep : stepServe site branch = some after) :
    after.serving ≠ .accepting ∧ (after.accepted k = true → site.accepted k = true) := by
  cases branch with
  | leave | acceptFailed err =>
    simp only [stepServe] at hstep
    cases hstep
  | accept j =>
    simp only [stepServe] at hstep
    split at hstep
    · exact absurd ‹_› hleft
    · cases hstep
  | join j =>
    simp only [stepServe] at hstep
    split at hstep
    case h_4 => cases hstep
    all_goals
      rename_i connection hserving hj
      split at hstep <;> cases hstep
      rename_i cancelled htask
      refine ⟨hleft, accepted_setConnection hj fun _ => ?_⟩
      rw [htask]
      rfl
  | deadline =>
    simp only [stepServe] at hstep
    split at hstep
    · split at hstep <;> cases hstep
      refine ⟨by simp, accepted_mapTasks fun task haccepted => ?_⟩
      cases task <;> first | rfl | cases haccepted
    · cases hstep
  | drained =>
    simp only [stepServe] at hstep
    split at hstep
    case h_3 => cases hstep
    all_goals
      split at hstep <;> cases hstep
      exact ⟨by simp, id⟩
  | drop =>
    simp only [stepServe] at hstep
    split at hstep
    · cases hstep
      refine ⟨by simp, accepted_mapTasks fun task haccepted => ?_⟩
      cases task <;> first | rfl | cases haccepted
    · cases hstep

theorem task_accepted {poll : Poll} {j : ℕ} (hj : site.connections[j]? = some connection)
    (hstep : stepTask ext site j connection poll = some after) :
    after.serving = site.serving ∧ (after.accepted k = true → site.accepted k = true) := by
  have hpolled : connection.task.polled = true → connection.task.accepted = true := by
    cases connection.task <;> simp [Task.polled, Task.accepted]
  cases poll with
  | respond =>
    simp only [stepTask] at hstep
    split at hstep
    · split at hstep <;> cases hstep
      exact ⟨rfl, accepted_setConnection hj id⟩
    · cases hstep
  | finish =>
    simp only [stepTask] at hstep
    split at hstep <;> cases hstep
    exact ⟨rfl, accepted_setConnection hj fun _ => hpolled ‹_›⟩
  | cancel =>
    simp only [stepTask] at hstep
    split at hstep <;> cases hstep
    rename_i htask
    refine ⟨rfl, accepted_setConnection hj fun _ => ?_⟩
    rw [htask]
    rfl

theorem client_accepted {move : Move} (hstep : stepClient ext address site c move = some after) :
    after.serving = site.serving ∧ (after.accepted k = true → site.accepted k = true) := by
  unfold stepClient at hstep
  split at hstep
  · cases hstep
    unfold dial
    split
    · exact ⟨rfl, id⟩
    · split
      · exact ⟨rfl, id⟩
      · exact ⟨rfl, accepted_dial rfl⟩
  · obtain ⟨connection, hj, rfl⟩ := Option.map_eq_some_iff.mp hstep
    unfold send
    split
    · exact ⟨rfl, id⟩
    · exact ⟨rfl, accepted_setConnection hj id⟩
  · obtain ⟨connection, -, hstep⟩ := Option.bind_eq_some_iff.mp hstep
    obtain ⟨response, -, hstep⟩ := Option.bind_eq_some_iff.mp hstep
    cases hstep
    exact ⟨rfl, id⟩
  all_goals
    first
    | cases hstep
    | obtain ⟨connection, -, hstep⟩ := Option.bind_eq_some_iff.mp hstep
      unfold lose at hstep
      split at hstep <;> cases hstep
      exact ⟨rfl, id⟩

/-- Out of the loop a step accepts nothing. -/
theorem step_accepted (hleft : site.serving ≠ .accepting) {action : Action}
    (hstep : step ext address site action = some after) :
    after.serving ≠ .accepting ∧ (after.accepted k = true → site.accepted k = true) := by
  cases action with
  | tick elapsed | shutdown =>
    cases hstep
    exact ⟨hleft, id⟩
  | serve branch => exact serve_accepted hleft hstep
  | task j poll =>
    obtain ⟨connection, hj, hstep⟩ := Option.bind_eq_some_iff.mp hstep
    obtain ⟨hserving, hback⟩ := task_accepted (k := k) hj hstep
    exact ⟨hserving ▸ hleft, hback⟩
  | client c move =>
    obtain ⟨hserving, hback⟩ := client_accepted (k := k) hstep
    exact ⟨hserving ▸ hleft, hback⟩

/-- The daemon drains as it says: a connection is cut off only when the drain has run for its
whole deadline or when accepting has failed for good; `serve` returns without an error only when
it was told to stop and no task is left; a transient failure never ends it; and once the loop has
been left no connection is accepted. -/
theorem serve_drains (hsite : Reachable (system ext address) site) :
    (∀ connection ∈ site.connections, connection.task.cut = true → site.Overran) ∧
    (site.serving = .returned (.ok ()) → site.stopping = true ∧
      ∀ connection ∈ site.connections, connection.task.settled = true) ∧
    (∀ err, site.serving = .returned (.error err) → isTransient err = false) ∧
    ∀ after k, site.serving ≠ .accepting → Steps (system ext address) site after →
      after.accepted k = true → site.accepted k = true := by
  have h := sound_of_reachable hsite
  have hphase := h.phase
  unfold Site.Phase at hphase
  refine ⟨fun connection hmem => (h.tasks connection hmem).cut, ?_, ?_, ?_⟩
  · intro hserving
    rw [hserving] at hphase
    exact hphase
  · intro err hserving
    rw [hserving] at hphase
    exact hphase
  · intro after k hleft hsteps
    have hkept : after.serving ≠ .accepting ∧ (after.accepted k = true → site.accepted k = true) := by
      induction hsteps with
      | refl => exact ⟨hleft, id⟩
      | tail _ hst ih =>
        obtain ⟨hleft', hback⟩ := step_accepted (k := k) ih.1 hst
        exact ⟨hleft', fun haccepted => ih.2 (hback haccepted)⟩
    exact hkept.2

def untouched : Site := ⟨0, false, .accepting, [], fun _ => .idle, none⟩

theorem untouched_init (ext : Externals) (address : String) : (system ext address).init untouched :=
  ⟨rfl, rfl, rfl, fun _ => rfl, rfl⟩

/-- A connection that sends nothing is still there when the deadline has passed. -/
def silent : List Action :=
  [.client 0 (.dial .health none), .serve (.accept 0), .shutdown, .serve .leave, .tick 5000,
    .serve .deadline, .task 0 .cancel, .serve (.join 0), .serve .drained, .serve .drop]

theorem serve_drains_silent : ∃ site : Site, site.serving = .returned (.ok ()) ∧
    (∃ connection ∈ site.connections, connection.task.cut = true ∧ site.Overran) ∧
    ∀ connection ∈ site.connections, connection.task.settled = true := by
  obtain ⟨site, hrun, hserving, hconnections⟩ : ∃ site,
      (system sampleExternals "mehoyd").run untouched silent = some site ∧
      site.serving = .returned (.ok ()) ∧ site.connections = [⟨0, .joined true, none, none⟩] :=
    ⟨_, rfl, rfl, rfl⟩
  have hreach := reachable_of_run (.init (untouched_init sampleExternals "mehoyd")) hrun
  have hdrains := serve_drains hreach
  have hmem : (⟨0, .joined true, none, none⟩ : Connection) ∈ site.connections := by
    rw [hconnections]
    exact List.mem_cons_self
  exact ⟨site, hserving, ⟨_, hmem, rfl, hdrains.1 _ hmem rfl⟩, (hdrains.2.1 hserving).2⟩

end MehoyRuntime.Daemon
