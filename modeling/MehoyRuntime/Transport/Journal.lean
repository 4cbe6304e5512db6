import MehoyRuntime.Transport.Handoff

/-!
# The trace of an endpoint

What a daemon does is a list of moves, from one point of `bind`, `accept` or the drop to the
next. Its trace says of each of them what there is to say, and nothing else. No step of another
daemon, of a client or of the system appears in it.
-/

namespace MehoyRuntime.Transport.Pipe
open TransitionSystem Daemons

def Action.actor : Action → Option ℕ
  | .bind d _ | .next d _ _ | .accept d | .cancel d | .drop d => some d
  | _ => none

def errorOf {α : Type} : Except IoError α → Option IoError
  | .error err => some err
  | .ok _ => none

/-- What the system call of a daemon's next step fails with, if it does. -/
def Site.failing (site : Site) (d : ℕ) : Action → Option IoError
  | .next _ failure choice =>
    match site.daemons d with
    | .creating _ => errorOf (attempt (site.create d true) failure)
    | .probing _ => errorOf (attempt (site.dial (.probe d) choice) failure)
    | .live _ .connecting => failure
    | .live _ .yielding => errorOf (attempt (site.create d false) failure)
    | _ => none
  | _ => none

structure Move where
  instant : ℕ
  before : Daemon
  after : Daemon
  error : Option IoError

/-- The move that a step of a daemon is. -/
def Site.move (site after : Site) (d : ℕ) (action : Action) : Move :=
  ⟨site.now, site.daemons d, after.daemons d, site.failing d action⟩

/-- What each stage stands for: the move that it is the record of. A listener is present while the
endpoint has an instance at which the next client is waited for. -/
def Move.events (address : String) (move : Move) : List EndpointEvent :=
  let event := fun stage (endpoint : Endpoint) error =>
    ⟨stage, address, endpoint.generation, endpoint.pending.isSome, error, move.instant⟩
  match move.before, move.after with
  | .creating _, .live endpoint _ => [event .instanceCreated endpoint none]
  | .creating _, .probing _ | .creating _, .judging _ | .creating _, .failed _ =>
    [event .instanceCreated ⟨none, 0⟩ move.error]
  | .live endpoint (.returned _), .live _ .connecting => [event .connectWaitStarted endpoint none]
  | .live endpoint .connecting, .live _ .yielding => [event .connectCompleted endpoint none]
  | .live endpoint .connecting, .live _ (.returned (some (.error err))) =>
    [event .acceptFailed endpoint (some err)]
  | .live endpoint .yielding, .live _ (.returned (some (.error _))) =>
    [event .replacementCreateStarted endpoint none, event .acceptFailed endpoint move.error]
  | .live endpoint .yielding, .live renewed (.returned (some (.ok _))) =>
    [event .replacementCreateStarted endpoint none, event .replacementCreated renewed none,
      event .connectionHandedOff endpoint none]
  | .live endpoint (.returned _), .dropping _ => [event .endpointClosed endpoint none]
  | _, _ => []

def note (address : String) (moves : ℕ → List Move) (site : Site) (action : Action) :
    ℕ → List Move :=
  match action.actor, step address site action with
  | some d, some after => Function.update moves d (moves d ++ [site.move after d action])
  | _, _ => moves

/-- The pipe with the moves of its daemons, which no step reads. -/
def journalled (address : String) : System (Site × (ℕ → List Move)) Action :=
  (system address).recording (fun _ => []) (note address)

/-- Every state of the pipe has its journal. -/
theorem journalled_iff {address : String} {site : Site} :
    Reachable (system address) site ↔ ∃ moves, Reachable (journalled address) (site, moves) :=
  ⟨fun h => h.recorded, fun ⟨_, h⟩ => h.unrecorded⟩

/-- How many instances a bind has opened to see whether the name answers. -/
def Site.probes (site : Site) (d : ℕ) : ℕ :=
  site.instances.countP fun found => found.opener = some (.probe d)

variable {address : String} {site after : Site} {d e handle : ℕ} {daemon : Daemon} {stage : Stage}
  {generation : UInt64} {present : Bool} {error : Option IoError} {moves : ℕ → List Move}

/-! ### Instances that a bind has opened -/

theorem probes_push {instances : List Instance} {found : Instance} {opener : Option Opener}
    (hfound : found.opener = none) :
    (instances ++ [found]).countP (fun found => found.opener = opener) =
      instances.countP (fun found => found.opener = opener) + if opener.isNone then 1 else 0 := by
  rw [List.countP_append, List.countP_singleton, hfound]
  cases opener <;> simp

theorem probes_setInstance {change : Instance → Instance}
    (hopener : ∀ found, (change found).opener = found.opener) (d : ℕ) :
    (site.setInstance handle change).probes d = site.probes d := by
  unfold Site.probes Site.setInstance
  rw [List.modify_eq_set_getElem?]
  cases hfound : site.instances[handle]? with
  | none => rfl
  | some found =>
    have hset := (Slots.perm_set hfound (change found)).countP_eq
      fun found => decide (found.opener = some (.probe d))
    have hget := (Slots.perm_getElem hfound).countP_eq
      fun found => decide (found.opener = some (.probe d))
    simp only [Option.map_eq_map, Option.map_some, Option.getD_some, hset, hget, List.countP_cons,
      hopener]

theorem probes_dial {opener : Opener} {found : Instance}
    (hfound : site.instances[handle]? = some found) (hlistening : found.listening = true) (d : ℕ) :
    (site.setInstance handle fun found => { found with opener }).probes d =
      site.probes d + if opener = .probe d then 1 else 0 := by
  have hnone : found.opener = none := by
    simp only [Instance.listening, Bool.and_eq_true] at hlistening
    exact Option.isNone_iff_eq_none.mp hlistening.2
  unfold Site.probes Site.setInstance
  have hset := (Slots.perm_set hfound { found with opener := some opener }).countP_eq
    fun found => decide (found.opener = some (.probe d))
  have hget := (Slots.perm_getElem hfound).countP_eq
    fun found => decide (found.opener = some (.probe d))
  rw [List.modify_eq_set_getElem?, hfound]
  simp only [Option.map_eq_map, Option.map_some, Option.getD_some, hset, hget, List.countP_cons,
    hnone]
  simp

/-! ### What a step leaves alone -/

/-- Nothing happens to the daemon but that time goes on. -/
structure Untouched (e : ℕ) (site after : Site) : Prop where
  daemon : after.daemons e = site.daemons e
  trace : after.trace e = site.trace e
  probes : after.probes e = site.probes e
  now : site.now ≤ after.now

theorem Untouched.trans {later : Site} (h : Untouched e site after)
    (h' : Untouched e after later) : Untouched e site later :=
  ⟨h'.daemon.trans h.daemon, h'.trace.trans h.trace, h'.probes.trans h.probes,
    Nat.le_trans h.now h'.now⟩

theorem untouched_set (hne : e ≠ d) : Untouched e site (site.set d daemon) :=
  ⟨daemons_set_ne hne, rfl, rfl, Nat.le_refl _⟩

theorem untouched_emit (hne : e ≠ d) :
    Untouched e site (site.emit address d stage generation present error) := by
  refine ⟨rfl, ?_, rfl, Nat.le_refl _⟩
  rw [trace_emit, if_neg hne]

theorem untouched_reported (hne : e ≠ d) : Untouched e site
    ((site.emit address d stage generation present error).set d daemon) :=
  (untouched_emit hne).trans (untouched_set hne)

theorem untouched_create {first : Bool} (h : site.create d first = .ok (after, handle)) :
    Untouched e site after := by
  obtain ⟨rfl, -, -⟩ := create_ok h
  exact ⟨rfl, rfl, probes_push rfl, Nat.le_refl _⟩

theorem untouched_dial {opener : Opener} {choice : ℕ} (hopener : opener ≠ .probe e)
    (h : site.dial opener choice = .ok (after, handle)) : Untouched e site after := by
  obtain ⟨rfl, found, hfound, hlistening⟩ := dial_ok h
  refine ⟨rfl, rfl, ?_, Nat.le_refl _⟩
  rw [probes_dial hfound hlistening, if_neg hopener, Nat.add_zero]

theorem untouched_setInstance {change : Instance → Instance}
    (hopener : ∀ found, (change found).opener = found.opener) :
    Untouched e site (site.setInstance handle change) :=
  ⟨rfl, rfl, probes_setInstance hopener e, Nat.le_refl _⟩

theorem untouched_replaced {endpoint : Endpoint} {pending : ℕ}
    {answer : Except IoError (Site × ℕ)} (hne : e ≠ d)
    (hanswer : ∀ after next, answer = .ok (after, next) →
      site.create d false = .ok (after, next)) :
    Untouched e site (replaced address site d endpoint pending answer) := by
  cases answer with
  | error err => exact untouched_reported hne
  | ok result =>
    obtain ⟨after, next⟩ := result
    have hcreated : Untouched e site (after.emit address d .replacementCreated
        (endpoint.generation + 1) true none) :=
      (untouched_create (hanswer after next rfl)).trans (untouched_emit hne)
    exact hcreated.trans ⟨daemons_set_ne hne, (untouched_emit hne).trace, rfl, Nat.le_refl _⟩

theorem untouched_next {failure : Option IoError} {choice : ℕ} (hne : e ≠ d)
    (hstep : stepNext address site d failure choice = some after) : Untouched e site after := by
  unfold stepNext at hstep
  split at hstep
  · rename_i locals hd
    cases hstep
    cases hanswer : attempt (site.create d true) failure with
    | error err =>
      simp only [created]
      split <;> exact untouched_reported hne
    | ok result =>
      obtain ⟨after, handle⟩ := result
      exact (untouched_create (attempt_ok hanswer).2).trans (untouched_reported hne)
  · rename_i locals hd
    cases hstep
    cases hanswer : attempt (site.dial (.probe d) choice) failure with
    | error err => exact untouched_set hne
    | ok result =>
      obtain ⟨after, handle⟩ := result
      have hopener : Opener.probe d ≠ .probe e := by simpa using Ne.symm hne
      exact (untouched_dial hopener (attempt_ok hanswer).2).trans (untouched_set hne)
  · cases hstep
    unfold judged
    split_ifs <;> exact untouched_set hne
  · split at hstep
    · cases hstep
      exact untouched_set hne
    · cases hstep
  · rename_i endpoint hd
    cases failure with
    | some err =>
      cases hstep
      exact untouched_reported hne
    | none =>
      simp only [connected] at hstep
      split at hstep
      · cases hstep
        exact untouched_reported hne
      · cases hstep
  · rename_i endpoint hd
    obtain ⟨pending, hpending, hstep⟩ := Option.bind_eq_some_iff.mp hstep
    cases hstep
    have hstarted : Untouched e site (site.emit address d .replacementCreateStarted
        endpoint.generation true none) := untouched_emit hne
    exact hstarted.trans (untouched_replaced hne fun _ _ hanswer => (attempt_ok hanswer).2)
  · cases hstep
    refine Untouched.trans ?_ (untouched_set hne)
    exact untouched_setInstance fun _ => rfl
  · cases hstep
    exact untouched_set hne
  · cases hstep
  · cases hstep
  · cases hstep
  · cases hstep

theorem untouched_step {action : Action} (hne : action.actor ≠ some e)
    (hstep : step address site action = some after) : Untouched e site after := by
  have hsame : ∀ d, action.actor = some d → e ≠ d := by
    intro d hd heq
    exact hne (heq ▸ hd)
  cases action with
  | tick elapsed =>
    cases hstep
    exact ⟨rfl, rfl, rfl, Nat.le_add_right _ _⟩
  | bind d sid =>
    simp only [step] at hstep
    split at hstep
    · cases hstep
      cases sid <;> exact untouched_set (hsame d rfl)
    · cases hstep
  | next d failure choice => exact untouched_next (hsame d rfl) hstep
  | accept d =>
    simp only [step] at hstep
    split at hstep
    · cases hstep
      unfold acceptStart
      split <;> exact untouched_reported (hsame d rfl)
    · cases hstep
  | cancel d =>
    simp only [step] at hstep
    split at hstep
    · cases hstep
      exact untouched_set (hsame d rfl)
    · cases hstep
      exact untouched_set (hsame d rfl)
    · cases hstep
  | drop d =>
    simp only [step] at hstep
    split at hstep
    · cases hstep
      exact untouched_reported (hsame d rfl)
    · cases hstep
  | finish handle =>
    simp only [step] at hstep
    split at hstep
    · cases hstep
      exact untouched_setInstance fun _ => rfl
    · cases hstep
  | teardown handle =>
    simp only [step] at hstep
    split at hstep
    · cases hstep
      exact untouched_setInstance fun _ => rfl
    · cases hstep
  | connect c =>
    simp only [step] at hstep
    split at hstep
    · cases hstep
      exact ⟨rfl, rfl, rfl, Nat.le_refl _⟩
    · cases hstep
  | dial c failure choice =>
    simp only [step] at hstep
    split at hstep
    · cases hstep
      cases hanswer : attempt (site.dial (.client c) choice) failure with
      | ok result =>
        obtain ⟨after, handle⟩ := result
        have hdial : Untouched e site after := untouched_dial (by simp) (attempt_ok hanswer).2
        exact ⟨hdial.daemon, hdial.trace, hdial.probes, hdial.now⟩
      | error err =>
        simp only [opened]
        split_ifs <;> exact ⟨rfl, rfl, rfl, Nat.le_refl _⟩
    · split at hstep
      · cases hstep
        exact ⟨rfl, rfl, rfl, Nat.le_refl _⟩
      · cases hstep
    · cases hstep

/-! ### What a step says -/

/-- A daemon that goes somewhere with one event. -/
theorem told_once {action : Action}
    (honce : (Move.mk site.now (site.daemons d) daemon (site.failing d action)).events address =
      [⟨stage, address, generation, present, error, site.now⟩]) :
    ((site.emit address d stage generation present error).set d daemon).trace d =
      site.trace d ++ (site.move
        ((site.emit address d stage generation present error).set d daemon) d action).events address := by
  rw [Site.move, daemons_set_self, honce]
  show (site.emit address d stage generation present error).trace d = _
  rw [trace_emit, if_pos rfl]

/-- A daemon that goes somewhere in silence. -/
theorem told_quietly {action : Action}
    (hquiet : (Move.mk site.now (site.daemons d) daemon (site.failing d action)).events address = []) :
    (site.set d daemon).trace d =
      site.trace d ++ (site.move (site.set d daemon) d action).events address := by
  rw [Site.move, daemons_set_self, hquiet, List.append_nil]

theorem told_created {locals : Binding} {failure : Option IoError} {choice : ℕ}
    (hd : site.daemons d = .creating locals) :
    (created address site d locals (attempt (site.create d true) failure)).trace d =
      site.trace d ++ (site.move (created address site d locals
        (attempt (site.create d true) failure)) d (.next d failure choice)).events address := by
  have hfailing : site.failing d (.next d failure choice) =
      errorOf (attempt (site.create d true) failure) := by simp only [Site.failing, hd]
  cases hanswer : attempt (site.create d true) failure with
  | error err =>
    simp only [created]
    split
    · refine told_once ?_
      rw [hd, hfailing, hanswer]
      split <;> rfl
    · refine told_once ?_
      rw [hd, hfailing, hanswer]
      rfl
  | ok result =>
    obtain ⟨after, handle⟩ := result
    obtain ⟨rfl, -, -⟩ := create_ok (attempt_ok hanswer).2
    rw [Site.move, hd]
    simp only [created]
    rw [daemons_set_self]
    simp [Move.events, Site.emit]

theorem told_connected {endpoint : Endpoint} {failure : Option IoError} {choice : ℕ}
    (hd : site.daemons d = .live endpoint .connecting) (hpending : endpoint.pending.isSome = true)
    (hstep : connected address site d endpoint failure = some after) :
    after.trace d =
      site.trace d ++ (site.move after d (.next d failure choice)).events address := by
  cases failure with
  | some err =>
    cases hstep
    refine told_once ?_
    simp only [hd, Move.events, hpending]
  | none =>
    simp only [connected] at hstep
    split at hstep
    · cases hstep
      refine told_once ?_
      simp only [hd, Move.events, hpending]
    · cases hstep

theorem told_replaced {endpoint : Endpoint} {pending choice : ℕ} {failure : Option IoError}
    (hd : site.daemons d = .live endpoint .yielding) (hpending : endpoint.pending = some pending)
    (hstep : stepNext address site d failure choice = some after) :
    after.trace d =
      site.trace d ++ (site.move after d (.next d failure choice)).events address := by
  have hfailing : site.failing d (.next d failure choice) =
      errorOf (attempt (site.create d false) failure) := by simp only [Site.failing, hd]
  simp only [stepNext, hd, hpending, Option.bind_eq_bind, Option.bind_some] at hstep
  cases hstep
  rw [Site.move, hd, hfailing]
  cases failure with
  | some err =>
    simp only [attempt, replaced]
    rw [daemons_set_self]
    simp [Move.events, hpending, errorOf, Site.emit]
  | none =>
    simp only [attempt, Site.create, replaced, Bool.false_eq_true, false_and, if_false]
    rw [daemons_set_self]
    simp [Move.events, hpending, Site.emit]

theorem told_next {failure : Option IoError} {choice : ℕ} (hi : Inv site)
    (hstep : stepNext address site d failure choice = some after) :
    after.trace d =
      site.trace d ++ (site.move after d (.next d failure choice)).events address := by
  have hstep' := hstep
  unfold stepNext at hstep
  split at hstep
  · rename_i locals hd
    cases hstep
    exact told_created hd
  · rename_i locals hd
    cases hstep
    cases hanswer : attempt (site.dial (.probe d) choice) failure with
    | error err =>
      refine told_quietly ?_
      simp only [hd, Move.events]
    | ok result =>
      obtain ⟨after, handle⟩ := result
      obtain ⟨rfl, -⟩ := dial_ok (attempt_ok hanswer).2
      rw [Site.move, hd]
      simp only [probed]
      rw [daemons_set_self]
      simp [Move.events, Site.setInstance]
  · rename_i locals hd
    cases hstep
    unfold judged
    split_ifs <;> (refine told_quietly ?_; simp only [hd, Move.events])
  · rename_i locals wake hd
    split at hstep
    · cases hstep
      refine told_quietly ?_
      simp only [hd, Move.events]
    · cases hstep
  · rename_i endpoint hd
    obtain ⟨handle, -, hpending, -⟩ := live_holds hi hd
    exact told_connected hd (by rw [hpending]; rfl) hstep
  · rename_i endpoint hd
    obtain ⟨handle, -, hpending, -⟩ := live_holds hi hd
    exact told_replaced hd hpending hstep'
  · rename_i pending hd
    cases hstep
    rw [Site.move, hd, daemons_set_self]
    simp [Move.events, Site.closeHandle, Site.setInstance]
  · rename_i hd
    cases hstep
    refine told_quietly ?_
    simp only [hd, Move.events]
  · cases hstep
  · cases hstep
  · cases hstep
  · cases hstep

theorem told_step {action : Action} (hi : Inv site) (hactor : action.actor = some d)
    (hstep : step address site action = some after) :
    after.trace d = site.trace d ++ (site.move after d action).events address := by
  cases action with
  | bind e sid =>
    obtain rfl : e = d := Option.some.inj hactor
    simp only [step] at hstep
    split at hstep
    · rename_i hd
      cases hstep
      cases sid <;> (refine told_quietly ?_; simp only [hd, Move.events])
    · cases hstep
  | next e failure choice =>
    obtain rfl : e = d := Option.some.inj hactor
    exact told_next hi hstep
  | accept e =>
    obtain rfl : e = d := Option.some.inj hactor
    simp only [step] at hstep
    split at hstep
    · rename_i endpoint last hd
      cases hstep
      obtain ⟨handle, -, hpending, -⟩ := live_holds hi hd
      simp only [acceptStart, hpending]
      refine told_once ?_
      simp only [hd, Move.events, hpending, Option.isSome_some]
    · cases hstep
  | cancel e =>
    obtain rfl : e = d := Option.some.inj hactor
    simp only [step] at hstep
    split at hstep
    · rename_i endpoint hd
      cases hstep
      refine told_quietly ?_
      simp only [hd, Move.events]
    · rename_i endpoint hd
      cases hstep
      refine told_quietly ?_
      simp only [hd, Move.events]
    · cases hstep
  | drop e =>
    obtain rfl : e = d := Option.some.inj hactor
    simp only [step] at hstep
    split at hstep
    · rename_i endpoint last hd
      cases hstep
      refine told_once ?_
      simp only [hd, Move.events]
    · cases hstep
  | tick elapsed => cases hactor
  | finish handle => cases hactor
  | teardown handle => cases hactor
  | connect c => cases hactor
  | dial c failure choice => cases hactor

theorem note_other {action : Action} (hactor : action.actor ≠ some d) :
    note address moves site action d = moves d := by
  cases he : action.actor with
  | none => simp only [note, he]
  | some e =>
    cases hstep : step address site action with
    | none => simp only [note, he, hstep]
    | some after =>
      simp only [note, he, hstep]
      refine Function.update_of_ne ?_ ..
      rintro rfl
      exact hactor he

theorem note_own {action : Action} (hactor : action.actor = some d)
    (hstep : step address site action = some after) :
    note address moves site action d = moves d ++ [site.move after d action] := by
  simp only [note, hactor, hstep]
  exact Function.update_self ..

/-- A trace is what the moves of its daemon have to say, from the first to the last. -/
theorem told_of_reachable (h : Reachable (journalled address) (site, moves)) (d : ℕ) :
    site.trace d = (moves d).flatMap (Move.events address) := by
  refine h.invariant (I := fun s => s.1.trace d = (s.2 d).flatMap (Move.events address)) ?_ ?_
  · rintro ⟨first, start⟩ ⟨⟨-, -, -, -, htrace⟩, rfl⟩
    exact htrace d
  · rintro ⟨site, moves⟩ ⟨after, moves'⟩ action hreach htold - hrecorded
    obtain ⟨hstep, rfl⟩ := recording_step hrecorded
    replace hstep : step address site action = some after := hstep
    have hi := inv_of_reachable (Reachable.unrecorded hreach)
    by_cases hactor : action.actor = some d
    · show after.trace d = (note address moves site action d).flatMap _
      rw [note_own hactor hstep, List.flatMap_append, List.flatMap_singleton,
        told_step hi hactor hstep]
      exact congrArg (· ++ _) htold
    · show after.trace d = (note address moves site action d).flatMap _
      rw [note_other hactor, (untouched_step hactor hstep).trace]
      exact htold

theorem connections_handed_off_once (address : String) (site : Site) (moves : ℕ → List Move)
    (hsite : Reachable (journalled address) (site, moves)) :
    (site.streams.map Stream.handle).Nodup ∧
    (∀ stream ∈ site.streams, ∃ found, site.instances[stream.handle]? = some found ∧
      found.creator = stream.daemon ∧ found.opener.isSome = true) ∧
    (∀ handle found, site.instances[handle]? = some found →
      handle ∉ site.streams.map Stream.handle →
      (site.daemons found.creator).holding = some handle ∧ found.phase = .held ∨
      (site.daemons found.creator).isClosed = true) ∧
    (∀ d, site.trace d = (moves d).flatMap (Move.events address)) ∧
    (∀ d, handoffs (site.trace d) = (List.range (site.served d)).map UInt64.ofNat) ∧
    (∀ d endpoint accepting, site.daemons d = .live endpoint accepting →
      endpoint.generation = UInt64.ofNat (site.served d)) ∧
    ∀ d endpoint, site.daemons d = .live endpoint .yielding →
      ∃ handle found, endpoint.pending = some handle ∧ site.instances[handle]? = some found ∧
        found.opener.isSome = true := by
  have hreach := hsite.unrecorded
  have h := inv_of_reachable hreach
  have hrecorded := recorded_of_reachable hreach
  refine ⟨h.once, h.handed, ?_, told_of_reachable hsite, hrecorded.numbered, ?_, ?_⟩
  · intro handle found hfound hstream
    rcases h.kept handle found hfound with hmem | hholding | hclosed
    · exact absurd hmem hstream
    · obtain ⟨found', hfound', hheld, -⟩ := h.owned _ handle hholding
      rw [hfound] at hfound'
      obtain rfl := Option.some.inj hfound'
      exact .inl ⟨hholding, hheld⟩
    · exact .inr hclosed
  · intro d endpoint accepting hd
    refine hrecorded.current d endpoint.generation ?_
    simp only [hd, Daemon.generation]
  · intro d endpoint hd
    obtain ⟨handle, found, hpending, hfound, -⟩ := live_holds h hd
    refine ⟨handle, found, hpending, hfound, ?_⟩
    exact h.yielded d handle found (by simp only [hd, Daemon.yields])
      (by simp only [hd, Daemon.holding, hpending]) hfound

theorem connections_handed_off_once_interrupted :
    ∃ site : Site, ∃ moves : ℕ → List Move, site.streams = [⟨0, 0⟩] ∧
      (site.trace 0).map EndpointEvent.stage = [.instanceCreated, .connectWaitStarted,
        .connectWaitStarted, .connectCompleted, .replacementCreateStarted, .acceptFailed,
        .connectWaitStarted, .connectCompleted, .replacementCreateStarted, .replacementCreated,
        .connectionHandedOff] ∧
      (site.streams.map Stream.handle).Nodup ∧
      site.trace 0 = (moves 0).flatMap (Move.events "mehoyd") := by
  obtain ⟨⟨site, moves⟩, hrun, hstreams, hstages⟩ : ∃ s,
      (journalled "mehoyd").run (untouched, fun _ => []) interrupted = some s ∧
      s.1.streams = [⟨0, 0⟩] ∧
      (s.1.trace 0).map EndpointEvent.stage = [.instanceCreated, .connectWaitStarted,
        .connectWaitStarted, .connectCompleted, .replacementCreateStarted, .acceptFailed,
        .connectWaitStarted, .connectCompleted, .replacementCreateStarted, .replacementCreated,
        .connectionHandedOff] := ⟨_, rfl, rfl, rfl⟩
  have hinit : (journalled "mehoyd").init (untouched, fun _ => []) := ⟨untouched_init _, rfl⟩
  have hreach := reachable_of_run (.init hinit) hrun
  have hall := connections_handed_off_once _ site moves hreach
  exact ⟨site, moves, hstreams, hstages, hall.1, hall.2.2.2.1 0⟩

end MehoyRuntime.Transport.Pipe
