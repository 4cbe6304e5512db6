import MehoyRuntime.Transport.Journal

/-!
# What a bind does while the pipe name is taken

A bind that is refused opens the pipe to see whether the name answers, waits and tries again. It
opens the pipe once for each refusal until it gets an answer, and never after that. It gives up
after a bounded number of refusals, and it takes the name for a running daemon's only when it is
still refused a while after the answer.
-/

namespace MehoyRuntime.Transport.Pipe
open TransitionSystem Daemons

def EndpointEvent.refused (event : EndpointEvent) : Bool :=
  event.stage = .instanceCreated && !event.listenerPresent

def refusals (events : List EndpointEvent) : ℕ := events.countP EndpointEvent.refused

/-- The creations that sleeps in between leave room for. -/
def BIND_ATTEMPTS : ℕ := BIND_LINGER_BUDGET / BIND_RETRY_INTERVAL + 1

/-- An attempt of a bind to open the pipe. -/
structure Opening where
  instant : ℕ
  answered : Bool

def Move.opening (move : Move) : Option Opening :=
  match move.before with
  | .probing _ => some ⟨move.instant, move.error.isNone⟩
  | _ => none

def openings (moves : List Move) : List Opening := moves.filterMap Move.opening

def Vain (openings : List Opening) : Prop := ∀ opening ∈ openings, opening.answered = false

/-- The locals say when the pipe answered, which was the last time that it was opened. -/
def Answered (now : ℕ) (openings : List Opening) (locals : Binding) : Prop :=
  match locals.answeredAt with
  | none => Vain openings
  | some answered => answered ≤ now ∧ ∃ vain, openings = vain ++ [⟨answered, true⟩] ∧ Vain vain

/-- One opening for each refusal, until there is an answer. -/
structure Paired (events : List EndpointEvent) (openings : List Opening) (locals : Binding) :
    Prop where
  bounded : openings.length ≤ refusals events
  each : locals.answeredAt = none → openings.length = refusals events

/-- The turn that a bind is in began with a refusal. The answer came in that same turn, or in one
before it. -/
def Refused (now : ℕ) (events : List EndpointEvent) (openings : List Opening)
    (answeredAt : Option ℕ) : Prop :=
  ∃ before last, events = before ++ [last] ∧ last.refused = true ∧ last.instant ≤ now ∧
    ∀ answered, answeredAt = some answered →
      last.instant ≤ answered ∧ openings.length = refusals events ∨
      answered ≤ last.instant ∧ openings.length < refusals events

/-- What it takes to tell that a daemon is running: the pipe was opened once, for as long as the
confirmation asks before the decision, and the turn of the decision began with a refusal. -/
structure Confirmed (events : List EndpointEvent) (moves : List Move) (answered decided : ℕ) :
    Prop where
  once : ∃ vain, openings moves = vain ++ [⟨answered, true⟩] ∧ Vain vain
  elapsed : answered + BIND_LIVENESS_CONFIRMATION ≤ decided
  refused : Refused decided events (openings moves) (some answered)
  last : ∃ earlier move, moves = earlier ++ [move] ∧ move.instant = decided

/-- What is left to know of a bind that is over. -/
structure Settled (events : List EndpointEvent) (openings : List Opening) : Prop where
  refusals : refusals events ≤ BIND_ATTEMPTS
  bounded : openings.length ≤ Pipe.refusals events
  vain : Vain openings.dropLast

/-- What is known of a daemon from its trace and its moves. -/
def Kept (now : ℕ) (events : List EndpointEvent) (moves : List Move) : Daemon → Prop
  | .unbound => events = [] ∧ moves = []
  | .creating locals => Answered now (openings moves) locals ∧
    Paired events (openings moves) locals ∧
    BIND_RETRY_INTERVAL * refusals events + locals.deadline ≤ now + BIND_LINGER_BUDGET ∧
    refusals events < BIND_ATTEMPTS
  | .probing locals => locals.answeredAt = none ∧ Vain (openings moves) ∧
    (openings moves).length + 1 = refusals events ∧
    Refused now events (openings moves) none ∧
    BIND_RETRY_INTERVAL * refusals events + locals.deadline ≤
      now + BIND_LINGER_BUDGET + BIND_RETRY_INTERVAL ∧ refusals events ≤ BIND_ATTEMPTS
  | .judging locals => Answered now (openings moves) locals ∧
    Paired events (openings moves) locals ∧
    Refused now events (openings moves) locals.answeredAt ∧
    BIND_RETRY_INTERVAL * refusals events + locals.deadline ≤
      now + BIND_LINGER_BUDGET + BIND_RETRY_INTERVAL ∧ refusals events ≤ BIND_ATTEMPTS
  | .sleeping locals wake => Answered now (openings moves) locals ∧
    Paired events (openings moves) locals ∧
    BIND_RETRY_INTERVAL * refusals events + locals.deadline ≤ wake + BIND_LINGER_BUDGET ∧
    refusals events < BIND_ATTEMPTS
  | .failed (.alreadyRunning _) => Settled events (openings moves) ∧
    ∃ answered decided, Confirmed events moves answered decided
  | .failed _ | .live _ _ | .dropping _ | .closed => Settled events (openings moves)

def Site.kept (site : Site) (moves : List Move) (d : ℕ) : Prop :=
  Kept site.now (site.trace d) moves (site.daemons d)

variable {address : String} {site after : Site} {d handle : ℕ} {daemon : Daemon}
  {events : List EndpointEvent} {now : ℕ} {locals : Binding} {moves : List Move} {move : Move}
  {opened : List Opening}

theorem openings_push (moves : List Move) (move : Move) :
    openings (moves ++ [move]) = openings moves ++ move.opening.toList := by
  unfold openings
  rw [List.filterMap_append]
  cases hopening : move.opening <;> simp [hopening]

/-- A step that does not open the pipe. -/
theorem openings_silent (hopening : move.opening = none) :
    openings (moves ++ [move]) = openings moves := by
  rw [openings_push, hopening, Option.toList_none, List.append_nil]

theorem Answered.later (h : Answered now opened locals) {later : ℕ} (hnow : now ≤ later) :
    Answered later opened locals := by
  unfold Answered at h ⊢
  split
  · simpa only [‹locals.answeredAt = none›] using h
  · rename_i answered hanswered
    simp only [hanswered] at h
    exact ⟨Nat.le_trans h.1 hnow, h.2⟩

theorem Answered.vain (h : Answered now opened locals) : Vain opened.dropLast := by
  unfold Answered at h
  split at h
  · exact fun opening hopening => h opening (List.dropLast_subset _ hopening)
  · obtain ⟨-, vain, rfl, hvain⟩ := h
    rw [List.dropLast_concat]
    exact hvain

theorem Refused.later {answeredAt : Option ℕ} (h : Refused now events opened answeredAt)
    {later : ℕ} (hnow : now ≤ later) : Refused later events opened answeredAt := by
  obtain ⟨before, last, hevents, hrefused, hinstant, hanswered⟩ := h
  exact ⟨before, last, hevents, hrefused, Nat.le_trans hinstant hnow, hanswered⟩

theorem kept_later (h : Kept now events moves daemon) {later : ℕ} (hnow : now ≤ later) :
    Kept later events moves daemon := by
  cases daemon with
  | creating locals =>
    obtain ⟨hanswered, hpaired, hbudget, hcount⟩ := h
    exact ⟨hanswered.later hnow, hpaired, by omega, hcount⟩
  | probing locals =>
    obtain ⟨hnone, hvain, hlength, hrefused, hbudget, hcount⟩ := h
    exact ⟨hnone, hvain, hlength, hrefused.later hnow, by omega, hcount⟩
  | judging locals =>
    obtain ⟨hanswered, hpaired, hrefused, hbudget, hcount⟩ := h
    exact ⟨hanswered.later hnow, hpaired, hrefused.later hnow, by omega, hcount⟩
  | sleeping locals wake =>
    obtain ⟨hanswered, hrest⟩ := h
    exact ⟨hanswered.later hnow, hrest⟩
  | failed err => cases err <;> exact h
  | unbound => exact h
  | live endpoint accepting => exact h
  | dropping pending => exact h
  | closed => exact h

/-! ### What a bind does -/

theorem refusals_append (events more : List EndpointEvent) :
    refusals (events ++ more) = refusals events + refusals more := List.countP_append

/-- A refusal costs the time the next attempt waits for. -/
theorem kept_refused {event : EndpointEvent} (h : Kept now events moves (.creating locals))
    (hrefused : event.refused = true) (hinstant : event.instant = now)
    (hopening : move.opening = none) :
    Kept now (events ++ [event]) (moves ++ [move])
      (if locals.answeredAt.isNone then .probing locals else .judging locals) := by
  obtain ⟨hanswered, hpaired, hbudget, hcount⟩ := h
  have hone : refusals (events ++ [event]) = refusals events + 1 := by
    rw [refusals_append]
    simp [refusals, hrefused]
  have hspent : BIND_RETRY_INTERVAL * refusals (events ++ [event]) + locals.deadline ≤
      now + BIND_LINGER_BUDGET + BIND_RETRY_INTERVAL := by
    rw [hone, Nat.mul_add, Nat.mul_one]
    omega
  have hbounded := hpaired.bounded
  cases hat : locals.answeredAt with
  | none =>
    have hvain : Vain (openings moves) := by simpa only [Answered, hat] using hanswered
    have heach := hpaired.each hat
    rw [Option.isNone_none, if_pos rfl]
    refine ⟨hat, ?_, ?_, ?_, hspent, by omega⟩
    · rw [openings_silent hopening]
      exact hvain
    · rw [openings_silent hopening]
      omega
    · exact ⟨events, event, rfl, hrefused, Nat.le_of_eq hinstant, fun answered h => by cases h⟩
  | some answered =>
    have hbefore : answered ≤ now := by
      simp only [Answered, hat] at hanswered
      exact hanswered.1
    rw [Option.isNone_some, if_neg (by decide)]
    refine ⟨?_, ⟨?_, ?_⟩, ?_, hspent, by omega⟩
    · rw [openings_silent hopening]
      exact hanswered
    · rw [openings_silent hopening]
      omega
    · intro hnone
      rw [hat] at hnone
      cases hnone
    · refine ⟨events, event, rfl, hrefused, Nat.le_of_eq hinstant, fun answered' h => ?_⟩
      obtain rfl : answered = answered' := Option.some.inj (hat.symm.trans h)
      rw [openings_silent hopening]
      exact .inr ⟨by omega, by omega⟩

/-- The pipe does not answer. -/
theorem kept_unanswered (h : Kept now events moves (.probing locals))
    (hopening : move.opening = some ⟨now, false⟩) :
    Kept now events (moves ++ [move]) (.judging locals) := by
  obtain ⟨hnone, hvain, hlength, hrefused, hbudget, hcount⟩ := h
  have hopenings : openings (moves ++ [move]) = openings moves ++ [⟨now, false⟩] := by
    rw [openings_push, hopening, Option.toList_some]
  have hcounted : (openings (moves ++ [move])).length = refusals events := by
    rw [hopenings, List.length_append, List.length_singleton, hlength]
  refine ⟨?_, ⟨Nat.le_of_eq hcounted, fun _ => hcounted⟩, ?_, hbudget, hcount⟩
  · simp only [Answered, hnone, hopenings]
    intro opening hmem
    rcases List.mem_append.mp hmem with hmem | hmem
    · exact hvain opening hmem
    · rw [List.mem_singleton.mp hmem]
  · obtain ⟨before, last, hevents, hlast, hinstant, -⟩ := hrefused
    refine ⟨before, last, hevents, hlast, hinstant, fun answered h => ?_⟩
    rw [hnone] at h
    cases h

theorem kept_answered (h : Kept now events moves (.probing locals))
    (hopening : move.opening = some ⟨now, true⟩) :
    Kept now events (moves ++ [move]) (.judging { locals with answeredAt := some now }) := by
  obtain ⟨-, hvain, hlength, hrefused, hbudget, hcount⟩ := h
  have hopenings : openings (moves ++ [move]) = openings moves ++ [⟨now, true⟩] := by
    rw [openings_push, hopening, Option.toList_some]
  have hcounted : (openings (moves ++ [move])).length = refusals events := by
    rw [hopenings, List.length_append, List.length_singleton, hlength]
  refine ⟨⟨Nat.le_refl now, openings moves, hopenings, hvain⟩,
    ⟨Nat.le_of_eq hcounted, fun _ => hcounted⟩, ?_, hbudget, hcount⟩
  obtain ⟨before, last, hevents, hlast, hinstant, -⟩ := hrefused
  refine ⟨before, last, hevents, hlast, hinstant, fun answered h => ?_⟩
  obtain rfl : now = answered := Option.some.inj h
  exact .inl ⟨hinstant, hcounted⟩

theorem kept_judged (h : Kept now events moves (.judging locals))
    (hdeadline : now < locals.deadline) (hopening : move.opening = none) :
    Kept now events (moves ++ [move]) (.sleeping locals (now + BIND_RETRY_INTERVAL)) := by
  obtain ⟨hanswered, hpaired, -, hbudget, hcount⟩ := h
  simp only [Kept, openings_silent hopening]
  refine ⟨hanswered, hpaired, by omega, ?_⟩
  simp only [BIND_ATTEMPTS, BIND_RETRY_INTERVAL, BIND_LINGER_BUDGET] at hbudget ⊢
  omega

/-- The time since the answer is over, and the turn began with a refusal. -/
theorem kept_confirmed (h : Kept now events moves (.judging locals))
    (helapsed : locals.answeredAt.any fun answered =>
      BIND_LIVENESS_CONFIRMATION ≤ now - answered)
    (hopening : move.opening = none) (hinstant : move.instant = now) :
    Kept now events (moves ++ [move]) (.failed (.alreadyRunning address)) := by
  obtain ⟨hanswered, hpaired, hrefused, -, hcount⟩ := h
  have hvain := hanswered.vain
  cases hlocals : locals.answeredAt with
  | none => simp [hlocals] at helapsed
  | some answered =>
    simp only [Answered, hlocals] at hanswered
    rw [hlocals] at hrefused
    have helapsed : BIND_LIVENESS_CONFIRMATION ≤ now - answered := by simpa [hlocals] using helapsed
    have hpositive : 0 < BIND_LIVENESS_CONFIRMATION := by decide
    refine ⟨?_, answered, now, ?_, by omega, ?_, moves, move, rfl, hinstant⟩
    · rw [openings_silent hopening]
      exact ⟨hcount, hpaired.bounded, hvain⟩
    · rw [openings_silent hopening]
      exact hanswered.2
    · rw [openings_silent hopening]
      exact hrefused

/-! ### A step of the daemon itself -/

theorem settled_of_kept (h : site.kept moves d) : Settled (site.trace d) (openings moves) := by
  unfold Site.kept at h
  cases hd : site.daemons d with
  | unbound =>
    simp only [hd, Kept] at h
    rw [h.1, h.2]
    exact ⟨Nat.zero_le _, Nat.le_refl _, fun opening hmem => by cases hmem⟩
  | creating locals =>
    simp only [hd, Kept] at h
    exact ⟨Nat.le_of_lt h.2.2.2, h.2.1.bounded, h.1.vain⟩
  | probing locals =>
    simp only [hd, Kept] at h
    obtain ⟨-, hvain, hlength, -, -, hcount⟩ := h
    exact ⟨hcount, by omega, fun opening hmem => hvain opening (List.dropLast_subset _ hmem)⟩
  | judging locals =>
    simp only [hd, Kept] at h
    exact ⟨h.2.2.2.2, h.2.1.bounded, h.1.vain⟩
  | sleeping locals wake =>
    simp only [hd, Kept] at h
    exact ⟨Nat.le_of_lt h.2.2.2, h.2.1.bounded, h.1.vain⟩
  | failed err =>
    cases err with
    | alreadyRunning _ =>
      simp only [hd, Kept] at h
      exact h.1
    | notRunning _ =>
      simp only [hd, Kept] at h
      exact h
    | io _ =>
      simp only [hd, Kept] at h
      exact h
  | live endpoint accepting =>
    simp only [hd, Kept] at h
    exact h
  | dropping pending =>
    simp only [hd, Kept] at h
    exact h
  | closed =>
    simp only [hd, Kept] at h
    exact h

/-- A daemon that is bound, or gave up for another reason than that one is running. -/
def Daemon.settles : Daemon → Bool
  | .failed (.alreadyRunning _) => false
  | .failed _ | .live _ _ | .dropping _ | .closed => true
  | _ => false

theorem kept_set (h : Settled (site.trace d) (openings moves)) (hsettles : daemon.settles = true) :
    (site.set d daemon).kept moves d := by
  unfold Site.kept
  rw [daemons_set_self]
  cases daemon with
  | failed err =>
    cases err with
    | alreadyRunning _ => cases hsettles
    | notRunning _ => exact h
    | io _ => exact h
  | live endpoint accepting => exact h
  | dropping pending => exact h
  | closed => exact h
  | unbound => cases hsettles
  | creating locals => cases hsettles
  | probing locals => cases hsettles
  | judging locals => cases hsettles
  | sleeping locals wake => cases hsettles

theorem settled_emit {stage : Stage} {generation : UInt64} {present : Bool}
    {error : Option IoError} (h : Settled (site.trace d) opened)
    (hstage : stage ≠ .instanceCreated ∨ present = true) :
    Settled ((site.emit address d stage generation present error).trace d) opened := by
  have hnone : EndpointEvent.refused ⟨stage, address, generation, present, error, site.now⟩ =
      false := by
    rcases hstage with hstage | hpresent
    · simp [EndpointEvent.refused, hstage]
    · simp [EndpointEvent.refused, hpresent]
  have hsame : refusals ((site.emit address d stage generation present error).trace d) =
      refusals (site.trace d) := by
    rw [trace_emit, if_pos rfl, refusals_append]
    simp [refusals, hnone]
  exact ⟨hsame ▸ h.refusals, hsame ▸ h.bounded, h.vain⟩

theorem Settled.silent (h : Settled events (openings moves)) (hopening : move.opening = none) :
    Settled events (openings (moves ++ [move])) := by
  rw [openings_silent hopening]
  exact h

/-- The steps of a daemon that do not open the pipe. -/
theorem opening_none {action : Action} (hd : ∀ locals, site.daemons d ≠ .probing locals) :
    (site.move after d action).opening = none := by
  cases hbefore : site.daemons d with
  | probing locals => exact absurd hbefore (hd locals)
  | _ => simp only [Move.opening, Site.move, hbefore]

theorem kept_created {action : Action} {answer : Except IoError (Site × ℕ)}
    (h : site.kept moves d) (hd : site.daemons d = .creating locals)
    (hanswer : ∀ after handle, answer = .ok (after, handle) →
      site.create d true = .ok (after, handle)) :
    (created address site d locals answer).kept
      (moves ++ [site.move (created address site d locals answer) d action]) d := by
  have hlocals : Kept site.now (site.trace d) moves (.creating locals) := hd ▸ h
  have hopening : ∀ after, (site.move after d action).opening = none := by
    intro after
    exact opening_none (by simp [hd])
  have hsettled := settled_of_kept h
  cases answer with
  | error err =>
    have hrefused : EndpointEvent.refused
        ⟨.instanceCreated, address, 0, false, some err, site.now⟩ = true := rfl
    have htrace : ((site.emit address d .instanceCreated 0 false (some err)).trace d) =
        site.trace d ++ [⟨.instanceCreated, address, 0, false, some err, site.now⟩] := by
      rw [trace_emit, if_pos rfl]
    simp only [created]
    split
    · unfold Site.kept
      rw [daemons_set_self]
      change Kept site.now ((site.emit address d .instanceCreated 0 false (some err)).trace d) _ _
      rw [htrace]
      exact kept_refused hlocals hrefused rfl (hopening _)
    · refine kept_set ?_ rfl
      have hone : refusals [⟨.instanceCreated, address, 0, false, some err, site.now⟩] = 1 := rfl
      have hcount := hlocals.2.2.2
      have hbounded := hlocals.2.1.bounded
      rw [htrace, openings_silent (hopening _)]
      refine ⟨?_, ?_, hsettled.vain⟩
      · rw [refusals_append, hone]
        exact hcount
      · rw [refusals_append]
        omega
  | ok result =>
    obtain ⟨after, handle⟩ := result
    have hcreated : Untouched d site after := untouched_create (hanswer after handle rfl)
    have hafter : Settled (after.trace d) (openings moves) := by
      rw [hcreated.trace]
      exact hsettled
    exact kept_set (settled_emit (hafter.silent (hopening _)) (.inr rfl)) rfl

theorem kept_probed {failure : Option IoError} {choice : ℕ} (h : site.kept moves d)
    (hd : site.daemons d = .probing locals) :
    (probed site d locals (attempt (site.dial (.probe d) choice) failure)).kept
      (moves ++ [site.move (probed site d locals (attempt (site.dial (.probe d) choice) failure)) d
        (.next d failure choice)]) d := by
  have hlocals : Kept site.now (site.trace d) moves (.probing locals) := hd ▸ h
  have hopening : ∀ after, (site.move after d (.next d failure choice)).opening =
      some ⟨site.now, (errorOf (attempt (site.dial (.probe d) choice) failure)).isNone⟩ := by
    intro after
    simp only [Move.opening, Site.move, Site.failing, hd]
  cases hanswer : attempt (site.dial (.probe d) choice) failure with
  | error err =>
    unfold Site.kept probed
    rw [daemons_set_self]
    refine kept_unanswered hlocals ?_
    rw [hopening, hanswer]
    rfl
  | ok result =>
    obtain ⟨after, handle⟩ := result
    obtain ⟨rfl, -⟩ := dial_ok (attempt_ok hanswer).2
    unfold Site.kept probed
    rw [daemons_set_self]
    refine kept_answered hlocals ?_
    rw [hopening, hanswer]
    rfl

theorem kept_decided {action : Action} (h : site.kept moves d)
    (hd : site.daemons d = .judging locals) :
    (judged address site d locals).kept
      (moves ++ [site.move (judged address site d locals) d action]) d := by
  have hlocals : Kept site.now (site.trace d) moves (.judging locals) := hd ▸ h
  have hopening : ∀ after, (site.move after d action).opening = none := by
    intro after
    exact opening_none (by simp [hd])
  unfold judged
  split
  · unfold Site.kept
    rw [daemons_set_self]
    exact kept_confirmed hlocals ‹_› (hopening _) rfl
  · split
    · exact kept_set ((settled_of_kept h).silent (hopening _)) rfl
    · unfold Site.kept
      rw [daemons_set_self]
      exact kept_judged hlocals (Nat.lt_of_not_le ‹_›) (hopening _)

theorem kept_replaced {endpoint : Endpoint} {pending : ℕ} {answer : Except IoError (Site × ℕ)}
    (h : Settled (site.trace d) (openings moves))
    (hanswer : ∀ after next, answer = .ok (after, next) →
      site.create d false = .ok (after, next)) :
    (replaced address site d endpoint pending answer).kept moves d := by
  cases answer with
  | error err => exact kept_set (settled_emit h (.inr rfl)) rfl
  | ok result =>
    obtain ⟨after, next⟩ := result
    have hcreated : Untouched d site after := untouched_create (hanswer after next rfl)
    have hafter : Settled (after.trace d) (openings moves) := by
      rw [hcreated.trace]
      exact h
    have hreported : Settled (((after.emit address d .replacementCreated (endpoint.generation + 1)
        true none).emit address d .connectionHandedOff endpoint.generation true none).trace d)
        (openings moves) := settled_emit (settled_emit hafter (.inr rfl)) (.inr rfl)
    exact kept_set hreported rfl

theorem kept_next {failure : Option IoError} {choice : ℕ} (h : site.kept moves d)
    (hstep : stepNext address site d failure choice = some after) :
    after.kept (moves ++ [site.move after d (.next d failure choice)]) d := by
  have hsettled := settled_of_kept h
  unfold stepNext at hstep
  split at hstep
  · rename_i locals hd
    cases hstep
    exact kept_created h hd fun _ _ hanswer => (attempt_ok hanswer).2
  · rename_i locals hd
    cases hstep
    exact kept_probed h hd
  · rename_i locals hd
    cases hstep
    exact kept_decided h hd
  · rename_i locals wake hd
    have hlocals : Kept site.now (site.trace d) moves (.sleeping locals wake) := hd ▸ h
    split at hstep
    · rename_i hwake
      cases hstep
      obtain ⟨hanswered, hpaired, hbudget, hcount⟩ := hlocals
      have hsame : openings (moves ++ [site.move (site.set d (.creating locals)) d
          (.next d failure choice)]) = openings moves := openings_silent (opening_none (by simp [hd]))
      unfold Site.kept
      rw [daemons_set_self]
      simp only [Kept, hsame]
      exact ⟨hanswered, hpaired, Nat.le_trans hbudget (Nat.add_le_add_right hwake _), hcount⟩
    · cases hstep
  · rename_i endpoint hd
    cases failure with
    | some err =>
      cases hstep
      exact kept_set (settled_emit (hsettled.silent (opening_none (by simp [hd]))) (.inr rfl)) rfl
    | none =>
      simp only [connected] at hstep
      split at hstep
      · cases hstep
        exact kept_set (settled_emit (hsettled.silent (opening_none (by simp [hd]))) (.inr rfl)) rfl
      · cases hstep
  · rename_i endpoint hd
    obtain ⟨pending, hpending, hstep⟩ := Option.bind_eq_some_iff.mp hstep
    cases hstep
    refine kept_replaced ?_ fun _ _ hanswer => (attempt_ok hanswer).2
    exact settled_emit (hsettled.silent (opening_none (by simp [hd]))) (.inr rfl)
  · rename_i pending hd
    cases hstep
    exact kept_set (hsettled.silent (opening_none (by simp [hd]))) rfl
  · rename_i hd
    cases hstep
    exact kept_set (hsettled.silent (opening_none (by simp [hd]))) rfl
  · cases hstep
  · cases hstep
  · cases hstep
  · cases hstep

theorem kept_own {action : Action} (h : site.kept moves d) (hactor : action.actor = some d)
    (hstep : step address site action = some after) :
    after.kept (moves ++ [site.move after d action]) d := by
  have hsettled := settled_of_kept h
  cases action with
  | bind e sid =>
    obtain rfl : e = d := Option.some.inj hactor
    simp only [step] at hstep
    split at hstep
    · rename_i hd
      have hlocals : Kept site.now (site.trace e) moves .unbound := hd ▸ h
      obtain ⟨htrace, rfl⟩ := hlocals
      cases hstep
      cases sid with
      | error err => exact kept_set (hsettled.silent (opening_none (by simp [hd]))) rfl
      | ok _ =>
        unfold Site.kept bindStart
        rw [daemons_set_self]
        change Kept site.now (site.trace e) _ _
        rw [htrace]
        have hsame : openings ([] ++ [site.move (site.set e (.creating
            ⟨site.now + BIND_LINGER_BUDGET, none⟩)) e (.bind e (.ok ()))]) = openings [] :=
          openings_silent (opening_none (by simp [hd]))
        refine ⟨?_, ⟨?_, ?_⟩, ?_, by decide⟩
        · exact hsame ▸ fun opening hmem => by cases hmem
        · exact hsame ▸ Nat.le_refl _
        · exact fun _ => hsame ▸ rfl
        · simp [refusals]
    · cases hstep
  | next e failure choice =>
    obtain rfl : e = d := Option.some.inj hactor
    exact kept_next h hstep
  | accept e =>
    obtain rfl : e = d := Option.some.inj hactor
    simp only [step] at hstep
    split at hstep
    · rename_i endpoint last hd
      have hopening : (site.move after e (.accept e)).opening = none := opening_none (by simp [hd])
      have hsilent := hsettled.silent hopening
      cases hstep
      revert hsilent
      unfold acceptStart
      split
      · exact fun hsilent => kept_set (settled_emit hsilent (.inl (by decide))) rfl
      · exact fun hsilent => kept_set (settled_emit hsilent (.inr rfl)) rfl
    · cases hstep
  | cancel e =>
    obtain rfl : e = d := Option.some.inj hactor
    simp only [step] at hstep
    split at hstep
    · rename_i endpoint hd
      cases hstep
      exact kept_set (hsettled.silent (opening_none (by simp [hd]))) rfl
    · rename_i endpoint hd
      cases hstep
      exact kept_set (hsettled.silent (opening_none (by simp [hd]))) rfl
    · cases hstep
  | drop e =>
    obtain rfl : e = d := Option.some.inj hactor
    simp only [step] at hstep
    split at hstep
    · rename_i endpoint last hd
      cases hstep
      exact kept_set (settled_emit (hsettled.silent (opening_none (by simp [hd])))
        (.inl (by decide))) rfl
    · cases hstep
  | tick elapsed => cases hactor
  | finish handle => cases hactor
  | teardown handle => cases hactor
  | connect c => cases hactor
  | dial c failure choice => cases hactor

/-! ### The instances that a bind connects to -/

theorem probes_next {failure : Option IoError} {choice : ℕ}
    (hd : ∀ locals, site.daemons d ≠ .probing locals)
    (hstep : stepNext address site d failure choice = some after) :
    after.probes d = site.probes d := by
  unfold stepNext at hstep
  split at hstep
  · cases hstep
    cases hanswer : attempt (site.create d true) failure with
    | error err =>
      simp only [created]
      split <;> rfl
    | ok result =>
      obtain ⟨after, handle⟩ := result
      exact (untouched_create (e := d) (attempt_ok hanswer).2).probes
  · rename_i locals hprobing
    exact absurd hprobing (hd locals)
  · cases hstep
    unfold judged
    split_ifs <;> rfl
  · split at hstep <;> cases hstep
    rfl
  · cases failure with
    | some err =>
      cases hstep
      rfl
    | none =>
      simp only [connected] at hstep
      split at hstep <;> cases hstep
      rfl
  · obtain ⟨pending, hpending, hstep⟩ := Option.bind_eq_some_iff.mp hstep
    cases hstep
    cases failure with
    | some err => rfl
    | none => exact probes_push rfl
  · rename_i pending _
    cases hstep
    have hclosed : Untouched d site (site.closeHandle pending) :=
      untouched_setInstance fun _ => rfl
    exact hclosed.probes
  · cases hstep
    rfl
  · cases hstep
  · cases hstep
  · cases hstep
  · cases hstep

/-- A daemon connects to an instance only while it asks whether the pipe answers. -/
theorem probes_silent {action : Action} (hd : ∀ locals, site.daemons d ≠ .probing locals)
    (hactor : action.actor = some d) (hstep : step address site action = some after) :
    after.probes d = site.probes d := by
  cases action with
  | next e failure choice =>
    obtain rfl : e = d := Option.some.inj hactor
    exact probes_next hd hstep
  | bind e sid =>
    simp only [step] at hstep
    split at hstep <;> cases hstep
    cases sid <;> rfl
  | accept e =>
    simp only [step] at hstep
    split at hstep <;> cases hstep
    unfold acceptStart
    split <;> rfl
  | cancel e =>
    simp only [step] at hstep
    split at hstep <;> cases hstep <;> rfl
  | drop e =>
    simp only [step] at hstep
    split at hstep <;> cases hstep
    rfl
  | tick elapsed => cases hactor
  | finish handle => cases hactor
  | teardown handle => cases hactor
  | connect c => cases hactor
  | dial c failure choice => cases hactor

theorem probes_asked {failure : Option IoError} {choice : ℕ}
    (hd : site.daemons d = .probing locals)
    (hstep : step address site (.next d failure choice) = some after) :
    after.probes d = site.probes d +
      (site.move after d (.next d failure choice)).opening.toList.countP Opening.answered := by
  simp only [step, stepNext, hd] at hstep
  cases hstep
  simp only [Move.opening, Site.move, Site.failing, hd]
  cases hanswer : attempt (site.dial (.probe d) choice) failure with
  | error err => rfl
  | ok result =>
    obtain ⟨after, handle⟩ := result
    obtain ⟨rfl, found, hfound, hlistening⟩ := dial_ok (attempt_ok hanswer).2
    show (site.setInstance handle _).probes d = _
    rw [probes_dial hfound hlistening, if_pos rfl]
    rfl

/-- An opening that is answered takes one instance, and nothing else that a daemon does takes any. -/
theorem probes_own {action : Action} (hactor : action.actor = some d)
    (hstep : step address site action = some after) :
    after.probes d =
      site.probes d + (site.move after d action).opening.toList.countP Opening.answered := by
  by_cases hprobing : ∃ locals, site.daemons d = .probing locals
  · obtain ⟨locals, hd⟩ := hprobing
    cases action with
    | next e failure choice =>
      obtain rfl : e = d := Option.some.inj hactor
      exact probes_asked hd hstep
    | bind e _ | accept e | cancel e | drop e =>
      obtain rfl : e = d := Option.some.inj hactor
      simp only [step, hd] at hstep
      cases hstep
    | tick | finish | teardown | connect | dial => cases hactor
  · have hd : ∀ locals, site.daemons d ≠ .probing locals := fun locals h => hprobing ⟨locals, h⟩
    rw [opening_none hd]
    exact probes_silent hd hactor hstep

/-! ### Every bind -/

theorem kept_of_reachable {moves : ℕ → List Move}
    (h : Reachable (journalled address) (site, moves)) (d : ℕ) :
    site.kept (moves d) d ∧
      site.probes d = (openings (moves d)).countP Opening.answered := by
  refine h.invariant (I := fun s => s.1.kept (s.2 d) d ∧
    s.1.probes d = (openings (s.2 d)).countP Opening.answered) ?_ ?_
  · rintro ⟨first, start⟩ ⟨⟨hinstances, -, hdaemons, -, htrace⟩, rfl⟩
    refine ⟨?_, ?_⟩
    · show Kept first.now (first.trace d) [] (first.daemons d)
      rw [hdaemons, htrace]
      exact ⟨rfl, rfl⟩
    · show first.probes d = 0
      rw [Site.probes, hinstances]
      rfl
  · rintro ⟨site, moves⟩ ⟨after, moves'⟩ action - ⟨hkept, hprobes⟩ - hrecorded
    obtain ⟨hstep, rfl⟩ := recording_step hrecorded
    replace hstep : step address site action = some after := hstep
    show after.kept (note address moves site action d) d ∧
      after.probes d = (openings (note address moves site action d)).countP Opening.answered
    by_cases hactor : action.actor = some d
    · rw [note_own hactor hstep]
      refine ⟨kept_own hkept hactor hstep, ?_⟩
      rw [probes_own hactor hstep, openings_push, List.countP_append]
      exact congrArg (· + _) hprobes
    · have huntouched := untouched_step hactor hstep
      rw [note_other hactor, huntouched.probes]
      refine ⟨?_, hprobes⟩
      unfold Site.kept
      rw [huntouched.daemon, huntouched.trace]
      exact kept_later hkept huntouched.now

theorem bind_keeps_to_budget (address : String) (site : Site) (moves : ℕ → List Move)
    (hsite : Reachable (journalled address) (site, moves)) (d : ℕ) :
    refusals (site.trace d) ≤ BIND_ATTEMPTS ∧
    (openings (moves d)).length ≤ refusals (site.trace d) ∧
    (∀ opening ∈ (openings (moves d)).dropLast, opening.answered = false) ∧
    site.probes d = (openings (moves d)).countP Opening.answered ∧
    (site.daemons d = .failed (.alreadyRunning address) →
      ∃ answered decided, Confirmed (site.trace d) (moves d) answered decided) := by
  obtain ⟨h, hprobes⟩ := kept_of_reachable hsite d
  have hsettled := settled_of_kept h
  refine ⟨hsettled.refusals, hsettled.bounded, hsettled.vain, hprobes, fun hd => ?_⟩
  simp only [Site.kept, hd, Kept] at h
  exact h.2

/-- A daemon starts while a client has the one instance there is, asks again when the other daemon
listens again, and is refused for half a second more. -/
def second : List Action :=
  [.bind 0 (.ok ()), .next 0 none 0, .connect 7, .dial 7 none 0, .bind 1 (.ok ()), .next 1 none 0,
    .next 1 none 0, .next 1 none 0, .accept 0, .next 0 none 0, .next 0 none 0, .tick 30,
    .next 1 none 0, .next 1 none 0, .next 1 none 0, .next 1 none 0, .tick 500, .next 1 none 0,
    .next 1 none 0, .next 1 none 0]

theorem bind_keeps_to_budget_second :
    ∃ site : Site, ∃ moves : ℕ → List Move,
      site.daemons 1 = .failed (.alreadyRunning "mehoyd") ∧
      openings (moves 1) = [⟨0, false⟩, ⟨30, true⟩] ∧ refusals (site.trace 1) = 3 ∧
      refusals (site.trace 1) ≤ BIND_ATTEMPTS ∧
      ∃ answered decided, Confirmed (site.trace 1) (moves 1) answered decided := by
  obtain ⟨⟨site, moves⟩, hrun, hfailed, hopenings, hrefusals⟩ : ∃ s,
      (journalled "mehoyd").run (untouched, fun _ => []) second = some s ∧
      s.1.daemons 1 = .failed (.alreadyRunning "mehoyd") ∧
      openings (s.2 1) = [⟨0, false⟩, ⟨30, true⟩] ∧ refusals (s.1.trace 1) = 3 :=
    ⟨_, rfl, rfl, rfl, rfl⟩
  have hinit : (journalled "mehoyd").init (untouched, fun _ => []) := ⟨untouched_init _, rfl⟩
  have hreach := reachable_of_run (.init hinit) hrun
  have hbudget := bind_keeps_to_budget _ site moves hreach 1
  exact ⟨site, moves, hfailed, hopenings, hrefusals, hbudget.1, hbudget.2.2.2.2 hfailed⟩

end MehoyRuntime.Transport.Pipe
