import MehoyRuntime.Transport.Directory
import MehoyRuntime.Transport.Daemons

/-!
# The endpoint of the daemon

`Endpoint::bind` and the drop of an `Endpoint` at one socket path, by any number of
daemons of one user, one system call at a time.
-/

namespace MehoyRuntime.Transport
open TransitionSystem Filesystem Daemons

structure Host where
  address : String
  euid : UInt32

/-- What is at the socket path. -/
structure Occupant where
  inode : ℕ
  isSocket : Bool
  uid : UInt32
  deriving DecidableEq, Repr

/-- Where a daemon is in `bind` or in the drop. The socket whose connection was refused is
not something it sees. -/
inductive Daemon
  | idle (last : Option EndpointError)
  | connecting
  | inspecting (refused : ℕ)
  | removing (refused : ℕ)
  | binding
  | live (socket : ℕ)
  | closing (socket : ℕ)
  deriving DecidableEq

structure Site extends Daemons Daemon where
  entry : Option Occupant
  next : ℕ
  listening : List ℕ

inductive Reached
  | accepted (socket : ℕ)
  | refused (socket : ℕ)
  deriving DecidableEq

namespace Site

abbrev set (site : Site) (d : ℕ) (daemon : Daemon) : Site :=
  { site with toDaemons := site.toDaemons.set d daemon }

/-- A connection reaches the socket at the path if anyone listens on it. -/
def connect (site : Site) : Except Fault Reached :=
  match site.entry with
  | none => .error .notFound
  | some found =>
    if found.isSocket ∧ found.inode ∈ site.listening then .ok (.accepted found.inode)
    else .ok (.refused found.inode)

def symlinkMetadata (site : Site) : Except Fault Occupant :=
  match site.entry with
  | none => .error .notFound
  | some found => .ok found

def removeFile (site : Site) : Except Fault Site :=
  match site.entry with
  | none => .error .notFound
  | some _ => .ok { site with entry := none }

/-- Binding makes the socket and listens on it. -/
def bind (site : Site) (euid : UInt32) : Except Fault Site :=
  match site.entry with
  | some _ => .error .alreadyExists
  | none => .ok { site with
      entry := some ⟨site.next, true, euid⟩
      next := site.next + 1
      listening := site.next :: site.listening }

end Site

namespace Endpoint
variable (host : Host)

/-- `clear_stale_socket` once the connection attempt is answered. -/
def connected : Except Fault Reached → Daemon
  | .ok (.accepted _) => .idle (some (.alreadyRunning host.address))
  | .ok (.refused socket) => .inspecting socket
  | .error .notFound => .binding
  | .error fault => .idle (some (.io fault))

/-- `clear_stale_socket` once the metadata is there. -/
def inspected (refused : ℕ) : Except Fault Occupant → Daemon
  | .error fault => .idle (some (.io fault))
  | .ok found =>
    if !found.isSocket then
      .idle (some (.unexpectedOccupant host.address "existing file is not a socket"))
    else if found.uid ≠ host.euid then
      .idle (some (.unexpectedOccupant host.address s!"socket is owned by uid {found.uid}"))
    else .removing refused

/-- The end of `clear_stale_socket`. -/
def removed (site : Site) (d : ℕ) : Except Fault Site → Site
  | .error fault => site.set d (.idle (some (.io fault)))
  | .ok site => site.set d .binding

/-- The end of `bind`. -/
def bound (site : Site) (d : ℕ) : Except Fault Site → Site
  | .error .alreadyExists => site.set d (.idle (some (.alreadyRunning host.address)))
  | .error fault => site.set d (.idle (some (.io fault)))
  | .ok after => after.set d (.live site.next)

/-- The drop goes on whether or not the file could be removed. -/
def dropped (site : Site) (d socket : ℕ) : Except Fault Site → Site
  | .error _ => site.set d (.closing socket)
  | .ok site => site.set d (.closing socket)

/-- `bind` with the answer of `ensure_private_directory`, the next system call of a `bind`
or a drop under way, and the first of a drop. -/
inductive Action
  | bind (d : ℕ) (directory : Except EndpointError Unit)
  | next (d : ℕ) (failure : Option String)
  | drop (d : ℕ) (failure : Option String)

def Action.daemon : Action → ℕ
  | .bind d _ | .next d _ | .drop d _ => d

def step (site : Site) : Action → Option Site
  | .bind d directory =>
    match site.daemons d, directory with
    | .idle _, .ok () => some (site.set d .connecting)
    | .idle _, .error err => some (site.set d (.idle (some err)))
    | _, _ => none
  | .next d failure =>
    match site.daemons d with
    | .connecting => some (site.set d (connected host (attempt site.connect failure)))
    | .inspecting refused =>
      some (site.set d (inspected host refused (attempt site.symlinkMetadata failure)))
    | .removing _ => some (removed site d (attempt site.removeFile failure))
    | .binding => some (bound host site d (attempt (site.bind host.euid) failure))
    | .closing socket =>
      some ({ site with listening := site.listening.erase socket }.set d (.idle none))
    | .live _ | .idle _ => none
  | .drop d failure =>
    match site.daemons d with
    | .live socket => some (dropped site d socket (attempt site.removeFile failure))
    | _ => none

/-- Nothing is at the path, or a socket that nobody listens on. -/
def system : System Site Action where
  init site := site.listening = [] ∧ (∀ d, site.daemons d = .idle none) ∧
    ∀ found, site.entry = some found → found.isSocket = true ∧ found.inode < site.next
  step site action := step host site action

/-- A step took the entry of a socket from the path on which an `Endpoint` is live. -/
def Evicts (before after : Site) (victim : ℕ) : Prop :=
  ∃ socket, before.daemons victim = .live socket ∧
    (∃ found, before.entry = some found ∧ found.inode = socket) ∧
    ∀ found, after.entry = some found → found.inode ≠ socket

/-- A socket that is removed as stale is the one whose connection was refused. -/
def removesRefused (site : Site) : Action → Bool
  | .next d none =>
    match site.daemons d, site.entry with
    | .removing refused, some found => found.inode = refused
    | _, _ => true
  | _ => true

def RemovesRefused (site : Site) (action : Action) : Prop := removesRefused site action = true

/-- In the runs every step of which meets `ok`, no daemon takes another one's endpoint away,
there is one at most, and clients reach it. -/
def Sole (ok : Site → Action → Prop) : Prop :=
  ∀ site, ReachableWhile (system host) ok site →
    (∀ action after victim, ok site action → step host site action = some after →
      Evicts site after victim → victim = action.daemon) ∧
    (∀ d e socket socket', site.daemons d = .live socket → site.daemons e = .live socket' → d = e) ∧
    ∀ d socket, site.daemons d = .live socket → site.connect = .ok (.accepted socket)

/-! ### What holds in every run that removes no socket but a refused one -/

/-- The socket a daemon listens on. -/
def Holds (site : Site) (d socket : ℕ) : Prop :=
  site.daemons d = .live socket ∨ site.daemons d = .closing socket

/-- The socket a daemon takes for stale. -/
def Suspects (site : Site) (d socket : ℕ) : Prop :=
  site.daemons d = .inspecting socket ∨ site.daemons d = .removing socket

structure Inv (site : Site) : Prop where
  sockets : ∀ found, site.entry = some found → found.isSocket = true ∧ found.inode < site.next
  held : ∀ d socket, Holds site d socket → socket < site.next ∧ socket ∈ site.listening
  owner : ∀ d e socket, Holds site d socket → Holds site e socket → d = e
  listening : ∀ socket ∈ site.listening, socket < site.next
  stale : ∀ d socket, Suspects site d socket → socket < site.next ∧ socket ∉ site.listening
  live : ∀ d socket, site.daemons d = .live socket → ∃ found, site.entry = some found ∧ found.inode = socket

variable {host} {site after : Site} {d : ℕ} {daemon : Daemon}

/-- A daemon that is not at a socket of its own, or suspects one rightly, may be so. -/
theorem inv_set (h : Inv site) (hlive : ∀ socket, daemon ≠ .live socket)
    (hclosing : ∀ socket, daemon ≠ .closing socket)
    (hstale : ∀ socket, daemon = .inspecting socket ∨ daemon = .removing socket →
      socket < site.next ∧ socket ∉ site.listening) : Inv (site.set d daemon) := by
  have hholds : ∀ e socket, Holds (site.set d daemon) e socket → e ≠ d ∧ Holds site e socket := by
    intro e socket he
    unfold Holds at he
    rw [daemons_set] at he
    split at he
    · exact absurd he (not_or.mpr ⟨hlive socket, hclosing socket⟩)
    · exact ⟨‹_›, he⟩
  refine ⟨h.sockets, ?_, ?_, h.listening, ?_, ?_⟩
  · intro e socket he
    exact h.held e socket (hholds e socket he).2
  · intro e e' socket he he'
    exact h.owner e e' socket (hholds e socket he).2 (hholds e' socket he').2
  · intro e socket he
    unfold Suspects at he
    rw [daemons_set] at he
    split at he
    · exact hstale socket he
    · exact h.stale e socket he
  · intro e socket he
    rw [daemons_set] at he
    split at he
    · exact absurd he (hlive socket)
    · exact h.live e socket he

/-- At no socket, its own or a suspected one. -/
def apart : Daemon → Bool
  | .idle _ | .connecting | .binding => true
  | _ => false

theorem inv_moved (h : Inv site) (hdaemon : apart daemon = true) : Inv (site.set d daemon) := by
  refine inv_set h ?_ ?_ ?_
  · rintro socket rfl
    cases hdaemon
  · rintro socket rfl
    cases hdaemon
  · rintro socket (rfl | rfl) <;> cases hdaemon

theorem inv_removed (h : Inv site) (hnone : ∀ d socket, site.daemons d ≠ .live socket) :
    Inv { site with entry := none } :=
  { h with
    sockets := nofun
    live := fun d socket hd => absurd hd (hnone d socket) }

theorem none_live (h : Inv site) (hfree : site.entry = none) (d socket : ℕ) :
    site.daemons d ≠ .live socket := by
  intro hd
  obtain ⟨found, hfound, -⟩ := h.live d socket hd
  rw [hfree] at hfound
  cases hfound

theorem inv_bound (h : Inv site) (hfree : site.entry = none) (euid : UInt32) :
    Inv (({ site with
      entry := some ⟨site.next, true, euid⟩
      next := site.next + 1
      listening := site.next :: site.listening } : Site).set d (.live site.next)) := by
  have hholds : ∀ e socket, Holds (({ site with
      entry := some ⟨site.next, true, euid⟩
      next := site.next + 1
      listening := site.next :: site.listening } : Site).set d (.live site.next)) e socket →
      (e = d ∧ socket = site.next) ∨ Holds site e socket := by
    intro e socket he
    unfold Holds at he
    rw [daemons_set] at he
    split at he
    · rcases he with he | he
      · exact .inl ⟨‹_›, (Daemon.live.inj he).symm⟩
      · cases he
    · exact .inr he
  refine ⟨?_, ?_, ?_, ?_, ?_, ?_⟩
  · rintro found ⟨⟩
    exact ⟨rfl, Nat.lt_succ_self _⟩
  · intro e socket he
    rcases hholds e socket he with ⟨-, rfl⟩ | hold
    · exact ⟨Nat.lt_succ_self _, List.mem_cons_self⟩
    · exact ⟨Nat.lt_succ_of_lt (h.held e socket hold).1, List.mem_cons_of_mem _ (h.held e socket hold).2⟩
  · intro e e' socket he he'
    rcases hholds e socket he with ⟨rfl, rfl⟩ | hold
    · rcases hholds e' _ he' with ⟨rfl, -⟩ | hold'
      · rfl
      · exact absurd (h.held e' _ hold').1 (Nat.lt_irrefl _)
    · rcases hholds e' socket he' with ⟨rfl, rfl⟩ | hold'
      · exact absurd (h.held e _ hold).1 (Nat.lt_irrefl _)
      · exact h.owner e e' socket hold hold'
  · intro socket hsocket
    rcases List.mem_cons.mp hsocket with rfl | hold
    · exact Nat.lt_succ_self _
    · exact Nat.lt_succ_of_lt (h.listening socket hold)
  · intro e socket he
    unfold Suspects at he
    rw [daemons_set] at he
    split at he
    · rcases he with he | he <;> cases he
    · obtain ⟨hlt, hnot⟩ := h.stale e socket he
      exact ⟨Nat.lt_succ_of_lt hlt, fun hs => (List.mem_cons.mp hs).elim (Nat.ne_of_lt hlt) hnot⟩
  · intro e socket he
    rw [daemons_set] at he
    split at he
    · exact ⟨_, rfl, Daemon.live.inj he⟩
    · exact absurd he (none_live h hfree e socket)

theorem inv_dropped {socket : ℕ} (h : Inv site) (hd : site.daemons d = .live socket) :
    Inv (site.set d (.closing socket)) := by
  have hholds : ∀ e s, Holds (site.set d (.closing socket)) e s → Holds site e s := by
    intro e s he
    unfold Holds at he
    rw [daemons_set] at he
    split at he
    · rcases he with he | he
      · cases he
      · rename_i hed
        rw [hed, ← Daemon.closing.inj he]
        exact .inl hd
    · exact he
  refine ⟨h.sockets, ?_, ?_, h.listening, ?_, ?_⟩
  · intro e s he
    exact h.held e s (hholds e s he)
  · intro e e' s he he'
    exact h.owner e e' s (hholds e s he) (hholds e' s he')
  · intro e s he
    unfold Suspects at he
    rw [daemons_set] at he
    split at he
    · rcases he with he | he <;> cases he
    · exact h.stale e s he
  · intro e s he
    rw [daemons_set] at he
    split at he
    · cases he
    · exact h.live e s he

/-- With the last endpoint gone nothing is live, and the file may be removed. -/
theorem inv_dropped_removed {socket : ℕ} (h : Inv site) (hd : site.daemons d = .live socket)
    (honly : ∀ e s, site.daemons e = .live s → e = d) :
    Inv (({ site with entry := none } : Site).set d (.closing socket)) := by
  refine inv_removed (inv_dropped h hd) fun e s he => ?_
  rw [daemons_set] at he
  split at he
  · cases he
  · exact absurd (honly e s he) ‹_›

theorem inv_closed {socket : ℕ} (h : Inv site) (hd : site.daemons d = .closing socket) :
    Inv (({ site with listening := site.listening.erase socket } : Site).set d (.idle none)) := by
  have hholds : ∀ e s, Holds (({ site with listening := site.listening.erase socket } : Site).set d
      (.idle none)) e s → s ≠ socket ∧ Holds site e s := by
    intro e s he
    unfold Holds at he
    rw [daemons_set] at he
    split at he
    · rcases he with he | he <;> cases he
    · refine ⟨?_, he⟩
      rintro rfl
      exact ‹¬ e = d› (h.owner e d s he (.inr hd))
  refine ⟨h.sockets, ?_, ?_, ?_, ?_, ?_⟩
  · intro e s he
    obtain ⟨hne, he⟩ := hholds e s he
    exact ⟨(h.held e s he).1, (List.mem_erase_of_ne hne).mpr (h.held e s he).2⟩
  · intro e e' s he he'
    exact h.owner e e' s (hholds e s he).2 (hholds e' s he').2
  · intro s hs
    exact h.listening s (List.mem_of_mem_erase hs)
  · intro e s he
    unfold Suspects at he
    rw [daemons_set] at he
    split at he
    · rcases he with he | he <;> cases he
    · exact ⟨(h.stale e s he).1, fun hs => (h.stale e s he).2 (List.mem_of_mem_erase hs)⟩
  · intro e s he
    rw [daemons_set] at he
    split at he
    · cases he
    · exact h.live e s he

theorem only_live (h : Inv site) {d e socket socket' : ℕ} (hd : site.daemons d = .live socket)
    (he : site.daemons e = .live socket') : d = e := by
  obtain ⟨found, hfound, rfl⟩ := h.live d socket hd
  obtain ⟨found', hfound', rfl⟩ := h.live e socket' he
  obtain rfl : found = found' := Option.some.inj (hfound.symm.trans hfound')
  exact h.owner d e _ (.inl hd) (.inl he)

/-- A refused socket has no listener, and never gets one. -/
theorem inv_connected (h : Inv site) (failure : Option String) :
    Inv (site.set d (connected host (attempt site.connect failure))) := by
  cases hanswer : attempt site.connect failure with
  | error fault =>
    cases fault <;> exact inv_moved h rfl
  | ok reached =>
    cases reached with
    | accepted socket => exact inv_moved h rfl
    | refused socket =>
      refine inv_set h nofun nofun fun s hs => ?_
      have hsocket : s = socket := by
        rcases hs with hs | hs
        · exact (Daemon.inspecting.inj hs).symm
        · cases hs
      subst hsocket
      have hconnect := (attempt_ok hanswer).2
      unfold Site.connect at hconnect
      split at hconnect
      · cases hconnect
      · rename_i found hfound
        split at hconnect
        · cases hconnect
        · rename_i hdead
          obtain rfl : found.inode = s := Reached.refused.inj (Except.ok.inj hconnect)
          obtain ⟨hkind, hlt⟩ := h.sockets found hfound
          exact ⟨hlt, fun hin => hdead ⟨hkind, hin⟩⟩

theorem inv_inspected {refused : ℕ} (h : Inv site) (hd : site.daemons d = .inspecting refused)
    (answer : Except Fault Occupant) : Inv (site.set d (inspected host refused answer)) := by
  have hrefused := h.stale d refused (.inl hd)
  unfold inspected
  split
  · exact inv_moved h rfl
  · split
    · exact inv_moved h rfl
    · split
      · exact inv_moved h rfl
      · refine inv_set h nofun nofun fun s hs => ?_
        rcases hs with hs | hs
        · cases hs
        · exact Daemon.removing.inj hs ▸ hrefused

theorem removeFile_ok (hr : site.removeFile = .ok after) : after = { site with entry := none } := by
  unfold Site.removeFile at hr
  split at hr
  · cases hr
  · exact (Except.ok.inj hr).symm

theorem inv_removed_step {refused : ℕ} {failure : Option String} (h : Inv site)
    (hd : site.daemons d = .removing refused)
    (hok : failure = none → ∀ found, site.entry = some found → found.inode = refused) :
    Inv (removed site d (attempt site.removeFile failure)) := by
  cases hanswer : attempt site.removeFile failure with
  | error fault => exact inv_moved h rfl
  | ok after =>
    obtain ⟨hnone, hremove⟩ := attempt_ok hanswer
    obtain rfl := removeFile_ok hremove
    -- A live socket at the path would be the refused one, which nobody listens on.
    refine inv_moved (inv_removed h fun e socket he => ?_) rfl
    obtain ⟨found, hfound, rfl⟩ := h.live e socket he
    have hrefused : found.inode ∉ site.listening :=
      hok hnone found hfound ▸ (h.stale d refused (.inr hd)).2
    exact hrefused (h.held e _ (.inl he)).2

theorem inv_bound_step (h : Inv site) (failure : Option String) :
    Inv (bound host site d (attempt (site.bind host.euid) failure)) := by
  cases hanswer : attempt (site.bind host.euid) failure with
  | error fault => cases fault <;> exact inv_moved h rfl
  | ok after =>
    have hbind := (attempt_ok hanswer).2
    unfold Site.bind at hbind
    split at hbind
    · cases hbind
    · cases hbind
      exact inv_bound h ‹_› host.euid

theorem inv_dropped_step {socket : ℕ} (h : Inv site) (hd : site.daemons d = .live socket)
    (failure : Option String) :
    Inv (dropped site d socket (attempt site.removeFile failure)) := by
  cases hanswer : attempt site.removeFile failure with
  | error fault => exact inv_dropped h hd
  | ok after =>
    obtain rfl := removeFile_ok (attempt_ok hanswer).2
    exact inv_dropped_removed h hd fun e s he => only_live h he hd

theorem inv_step {action : Action} (h : Inv site) (hok : RemovesRefused site action)
    (hstep : step host site action = some after) : Inv after := by
  cases action with
  | bind d directory =>
    simp only [step] at hstep
    split at hstep
    · cases hstep
      exact inv_moved h rfl
    · cases hstep
      exact inv_moved h rfl
    · cases hstep
  | next d failure =>
    cases hd : site.daemons d with
    | idle last => simp only [step, hd, reduceCtorEq] at hstep
    | live socket => simp only [step, hd, reduceCtorEq] at hstep
    | connecting =>
      simp only [step, hd, Option.some.injEq] at hstep
      exact hstep ▸ inv_connected h failure
    | inspecting refused =>
      simp only [step, hd, Option.some.injEq] at hstep
      exact hstep ▸ inv_inspected h hd _
    | removing refused =>
      simp only [step, hd, Option.some.injEq] at hstep
      refine hstep ▸ inv_removed_step h hd fun hnone found hfound => ?_
      subst hnone
      simpa only [RemovesRefused, removesRefused, hd, hfound, decide_eq_true_eq] using hok
    | binding =>
      simp only [step, hd, Option.some.injEq] at hstep
      exact hstep ▸ inv_bound_step h failure
    | closing socket =>
      simp only [step, hd, Option.some.injEq] at hstep
      exact hstep ▸ inv_closed h hd
  | drop d failure =>
    simp only [step] at hstep
    split at hstep
    · cases hstep
      exact inv_dropped_step h ‹_› failure
    · cases hstep

theorem inv_of_reachable (h : ReachableWhile (system host) RemovesRefused site) : Inv site := by
  refine h.invariant ?_ fun _ _ _ _ hi hok hstep => inv_step hi hok hstep
  rintro first ⟨hlistening, hidle, hentry⟩
  have hholds : ∀ d socket, ¬ Holds first d socket := by
    intro d socket hd
    unfold Holds at hd
    rw [hidle] at hd
    rcases hd with hd | hd <;> cases hd
  refine ⟨hentry, fun d socket hd => absurd hd (hholds d socket),
    fun d _ socket hd => absurd hd (hholds d socket), ?_, ?_, ?_⟩
  · rw [hlistening]
    exact nofun
  · intro d socket hd
    unfold Suspects at hd
    rw [hidle] at hd
    rcases hd with hd | hd <;> cases hd
  · intro d socket hd
    exact absurd (.inl hd) (hholds d socket)

/-- Clients reach a live endpoint. -/
theorem connect_live {socket : ℕ} (h : Inv site) (hd : site.daemons d = .live socket) :
    site.connect = .ok (.accepted socket) := by
  obtain ⟨found, hfound, rfl⟩ := h.live d socket hd
  have hlistens : found.isSocket ∧ found.inode ∈ site.listening :=
    ⟨(h.sockets found hfound).1, (h.held d _ (.inl hd)).2⟩
  unfold Site.connect
  rw [hfound]
  exact if_pos hlistens

theorem daemons_removed {answer : Except Fault Site} {e : ℕ} (hne : e ≠ d)
    (hanswer : ∀ after, answer = .ok after → after.daemons = site.daemons) :
    (removed site d answer).daemons e = site.daemons e := by
  cases answer with
  | error fault => exact daemons_set_ne hne
  | ok after => exact (daemons_set_ne hne).trans (congrFun (hanswer after rfl) e)

theorem daemons_bound {answer : Except Fault Site} {e : ℕ} (hne : e ≠ d)
    (hanswer : ∀ after, answer = .ok after → after.daemons = site.daemons) :
    (bound host site d answer).daemons e = site.daemons e := by
  cases answer with
  | error fault => cases fault <;> exact daemons_set_ne hne
  | ok after => exact (daemons_set_ne hne).trans (congrFun (hanswer after rfl) e)

theorem daemons_dropped {answer : Except Fault Site} {e socket : ℕ} (hne : e ≠ d)
    (hanswer : ∀ after, answer = .ok after → after.daemons = site.daemons) :
    (dropped site d socket answer).daemons e = site.daemons e := by
  cases answer with
  | error fault => exact daemons_set_ne hne
  | ok after => exact (daemons_set_ne hne).trans (congrFun (hanswer after rfl) e)

theorem daemons_removeFile {failure : Option String}
    (h : attempt site.removeFile failure = .ok after) : after.daemons = site.daemons := by
  rw [removeFile_ok (attempt_ok h).2]

theorem daemons_bind {failure : Option String} {euid : UInt32}
    (h : attempt (site.bind euid) failure = .ok after) : after.daemons = site.daemons := by
  have hbind := (attempt_ok h).2
  unfold Site.bind at hbind
  split at hbind
  · cases hbind
  · rw [← Except.ok.inj hbind]

/-- A step is one daemon's. -/
theorem daemons_step {action : Action} {e : ℕ} (hstep : step host site action = some after)
    (hne : e ≠ action.daemon) : after.daemons e = site.daemons e := by
  cases action with
  | bind d directory =>
    simp only [step] at hstep
    split at hstep
    · cases hstep
      exact daemons_set_ne hne
    · cases hstep
      exact daemons_set_ne hne
    · cases hstep
  | next d failure =>
    simp only [step] at hstep
    split at hstep
    all_goals cases hstep
    · exact daemons_set_ne hne
    · exact daemons_set_ne hne
    · exact daemons_removed hne fun _ => daemons_removeFile
    · exact daemons_bound hne fun _ => daemons_bind
    · exact daemons_set_ne hne
  | drop d failure =>
    simp only [step] at hstep
    split at hstep
    · cases hstep
      exact daemons_dropped hne fun _ => daemons_removeFile
    · cases hstep

theorem sole_removesRefused (host : Host) : Sole host RemovesRefused := by
  intro site hsite
  have h := inv_of_reachable hsite
  refine ⟨?_, fun d e socket socket' hd he => only_live h hd he, fun d socket => connect_live h⟩
  rintro action after victim hok hstep ⟨socket, hlive, -, hgone⟩
  -- Another daemon's endpoint would still be live, at the entry that is gone.
  by_contra hne
  have hstill : after.daemons victim = .live socket := (daemons_step hstep hne).trans hlive
  obtain ⟨found, hfound, hnamed⟩ := (inv_step h hok hstep).live victim socket hstill
  exact hgone found hfound hnamed

/-- A stale socket at the path, and two daemons that start. -/
def crashed : Site where
  entry := some ⟨0, true, 1000⟩
  next := 1
  listening := []
  daemons := fun _ => .idle none

theorem crashed_init (host : Host) : (system host).init crashed := by
  refine ⟨rfl, fun _ => rfl, ?_⟩
  rintro found ⟨⟩
  exact ⟨rfl, Nat.zero_lt_one⟩

/-- One daemon takes the place of the stale socket, and another is told that it runs. -/
theorem sole_recovery :
    ∃ site, ReachableWhile (system ⟨"/run/user/1000/mehoy/mehoyd.sock", 1000⟩) RemovesRefused site ∧
      site.daemons 1 = .idle (some (.alreadyRunning "/run/user/1000/mehoy/mehoyd.sock")) ∧
      site.daemons 0 = .live 1 ∧ site.connect = .ok (.accepted 1) := by
  obtain ⟨site, hrun, hsecond, hfirst⟩ : ∃ site,
      (system ⟨"/run/user/1000/mehoy/mehoyd.sock", 1000⟩).runWhile removesRefused crashed
        [.bind 0 (.ok ()), .next 0 none, .next 0 none, .next 0 none, .next 0 none,
          .bind 1 (.ok ()), .next 1 none] = some site ∧
      site.daemons 1 = .idle (some (.alreadyRunning "/run/user/1000/mehoy/mehoyd.sock")) ∧
      site.daemons 0 = .live 1 := ⟨_, rfl, rfl, rfl⟩
  have hreach : ReachableWhile _ RemovesRefused site :=
    reachableWhile_of_run (fun _ _ h => h) (.init (crashed_init _)) hrun
  exact ⟨site, hreach, hsecond, hfirst, (sole_removesRefused _ site hreach).2.2 0 1 hfirst⟩

/-- Both find the stale socket, and the second removes what the first has bound. -/
def crossing : List Action :=
  [.bind 0 (.ok ()), .next 0 none, .next 0 none, .bind 1 (.ok ()), .next 1 none, .next 1 none,
    .next 0 none, .next 0 none, .next 1 none, .next 1 none]

theorem sole_crossing : ¬ Sole ⟨"/run/user/1000/mehoy/mehoyd.sock", 1000⟩ fun _ _ => True := by
  intro hclaim
  obtain ⟨site, hrun, hfirst, hsecond⟩ : ∃ site,
      (system ⟨"/run/user/1000/mehoy/mehoyd.sock", 1000⟩).run crashed crossing = some site ∧
      site.daemons 0 = .live 1 ∧ site.daemons 1 = .live 2 := ⟨_, rfl, rfl, rfl⟩
  have hreach := reachable_of_run (.init (crashed_init _)) hrun
  have hsame : 0 = 1 := (hclaim site hreach).2.1 0 1 1 2 hfirst hsecond
  cases hsame

end Endpoint
end MehoyRuntime.Transport
