import MehoyRuntime.Stream.Demonstration
import MehoyRuntime.Stream.Exchange
import MehoyRuntime.Stream.Undisturbed

/-!
# Collecting a response

What `collect` returns on the stream of a response that nobody disturbs. It stops at the first
terminal item, and a stream has nothing after one.
-/

namespace MehoyRuntime.Stream
open MehoyRuntime.Core TransitionSystem

/-- The loop of `collect` over what `next` has handed out so far. -/
def collect (text : String) : List StreamItem → Collecting
  | [] => .reading text
  | item :: items =>
    match collectItem text (some item) with
    | .reading text => collect text items
    | .returned result => .returned result

def State.collecting (s : State) : Collecting := collect "" s.chan.delivered

/-- What `collect` makes of a delivery. -/
def Delivery.Gives (d : Delivery) : Except GenerationStreamError GenerationOutcome → Prop
  | .ok (.completed result) => ∃ summary, d.ending = .completed summary ∧
      result = ⟨String.join d.deltas, summary.finishReason, summary.usage⟩
  | .ok (.cancelled _ _) => False
  | .error error => endingOf (.error error) = some d.ending

/-- An undisturbed run over the frames of a response. -/
def Receives (ext : Externals) (frames : List (Option (List UInt8))) (actions : List Action)
    (t : State) : Prop :=
  ∃ id request, (system ext).run (startGeneration (.new id) (.ok request)) actions = some t ∧
    Undisturbed frames actions

/-- However far an undisturbed run has come, `collect` can still return, and all that it
returns is this result. -/
structure Collects (ext : Externals) (frames : List (Option (List UInt8)))
    (result : Except GenerationStreamError GenerationOutcome) : Prop where
  returns : ∀ actions t, Receives ext frames actions t → ∃ more t',
    (system ext).run t more = some t' ∧ Undisturbed frames (actions ++ more) ∧
      t'.collecting = .returned result
  only : ∀ actions t other, Receives ext frames actions t → t.collecting = .returned other →
    other = result

/-- Nothing comes after a terminal item. -/
def Closes (c : Channel) : Prop := ∀ item ∈ c.items.dropLast, isTerminalItem item = false

variable {ext : Externals}

/-! ### The loop of `collect` -/

theorem collect_returns {items : List StreamItem} (text : String)
    (h : ∃ item ∈ items, isTerminalItem item = true) :
    ∃ result, collect text items = .returned result := by
  induction items generalizing text with
  | nil =>
    obtain ⟨item, hmem, -⟩ := h
    cases hmem
  | cons first items ih =>
    unfold collect
    cases hfirst : collectItem text (some first) with
    | returned result => exact ⟨result, rfl⟩
    | reading text' =>
      obtain ⟨item, hmem, hterminal⟩ := h
      rcases List.mem_cons.mp hmem with rfl | hmem
      · rw [(Exchange.collectItem_reading hfirst).1] at hterminal
        cases hterminal
      · exact ih text' ⟨item, hmem, hterminal⟩

/-- Where `collect` returns: the text before, and the terminal item. -/
theorem collect_returned {items : List StreamItem} {text : String}
    {result : Except GenerationStreamError GenerationOutcome}
    (h : collect text items = .returned result) :
    ∃ before item after, items = before ++ item :: after ∧
      (∀ other ∈ before, isTerminalItem other = false) ∧ isTerminalItem item = true ∧
      collectItem (text ++ String.join (before.filterMap deltaText)) (some item) =
        .returned result := by
  induction items generalizing text with
  | nil => cases h
  | cons first items ih =>
    unfold collect at h
    cases hfirst : collectItem text (some first) with
    | returned found =>
      rw [hfirst] at h
      cases h
      refine ⟨[], first, items, rfl, fun _ hmem => ?_, Exchange.collectItem_returned hfirst, ?_⟩
      · cases hmem
      · simpa using hfirst
    | reading text' =>
      rw [hfirst] at h
      obtain ⟨hopen, rfl⟩ := Exchange.collectItem_reading hfirst
      obtain ⟨before, item, after, rfl, hbefore, hterminal, hresult⟩ := ih h
      refine ⟨first :: before, item, after, rfl, ?_, hterminal, ?_⟩
      · intro other hmem
        rcases List.mem_cons.mp hmem with rfl | hmem
        · exact hopen
        · exact hbefore other hmem
      · rw [← hresult, List.filterMap_cons]
        cases deltaText first with
        | none => simp
        | some delta => simp [String.append_assoc]

theorem deltaText_of_terminal {item : StreamItem} (h : isTerminalItem item = true) :
    deltaText item = none := by
  rcases item with error | event
  · rfl
  · cases event <;> first | rfl | cases h

theorem gives_of_returned {c : Channel} {d : Delivery}
    {result : Except GenerationStreamError GenerationOutcome} (hcloses : Closes c)
    (hdelivers : Delivers c d) (h : collect "" c.delivered = .returned result) :
    d.Gives result := by
  obtain ⟨before, item, after, hdelivered, hbefore, hterminal, hresult⟩ := collect_returned h
  have hitems : c.items = before ++ item :: (after ++ c.queue) := by
    rw [Channel.items, hdelivered, List.append_assoc, List.cons_append]
  have hlast : after ++ c.queue = [] := by
    by_contra hne
    have hmem : item ∈ c.items.dropLast := by
      rw [hitems, List.dropLast_append_of_ne_nil (List.cons_ne_nil _ _),
        List.dropLast_cons_of_ne_nil hne]
      simp
    rw [hcloses item hmem] at hterminal
    cases hterminal
  rw [hlast] at hitems
  have htexts : before.filterMap deltaText = d.deltas := by
    rw [← hdelivers.1, hitems, List.filterMap_append]
    simp [deltaText_of_terminal hterminal]
  have hending : endingOf item = some d.ending := by
    have hfilter : before.filter isTerminalItem = [] := by
      rw [List.filter_eq_nil_iff]
      intro other hother
      simp [hbefore other hother]
    have hends := hdelivers.2
    rw [hitems, List.filter_append, hfilter] at hends
    simpa [hterminal] using hends
  rw [htexts, String.empty_append] at hresult
  rcases item with error | event
  · cases hresult
    exact hending
  · cases event with
    | completed id summary =>
      cases hresult
      exact ⟨summary, (Option.some.inj hending).symm, rfl⟩
    | started | textDelta | cancelled => cases hending

/-! ### Nothing after a terminal item -/

theorem closes_quiet {c c' : Channel} {item : StreamItem}
    (hquiet : ∀ other ∈ c.items, isTerminalItem other = false)
    (hdelivered : c'.delivered = c.delivered)
    (hqueue : c'.queue = c.queue ∨ c'.queue = c.queue ++ [item]) : Closes c' := by
  intro other hmem
  rcases hqueue with hqueue | hqueue
  · rw [Channel.items, hdelivered, hqueue] at hmem
    exact hquiet other (List.dropLast_subset _ hmem)
  · rw [Channel.items, hdelivered, hqueue, ← List.append_assoc, List.dropLast_concat] at hmem
    exact hquiet other hmem

theorem Closes.of_items {c c' : Channel} (h : Closes c) (hitems : c'.items = c.items) :
    Closes c' := by
  rw [Closes, hitems]
  exact h

namespace State
variable {s s' : State}

theorem closes_step {a : Action} (hsound : s.Sound) (h : Closes s.chan)
    (hst : step ext s a = some s') : Closes s'.chan := by
  cases step_cases hst with
  | task htask =>
    rcases taskStep_speaks htask with hsilent | ⟨text, rest, hpc, hspoken⟩ | ⟨item, hpc, hspoken⟩
    · exact h.of_items hsilent.items
    · exact closes_quiet (hsound.quiet (by rw [hpc]; rfl)) hspoken.delivered hspoken.queue
    · exact closes_quiet (hsound.quiet (by rw [hpc]; rfl)) hspoken.delivered hspoken.queue
  | aborted | told => exact h.of_items rfl
  | finished => exact h
  | read _ _ hqueue => exact h.of_items (by simp [Channel.items, hqueue])
  | gone _ hunfinished hqueue =>
    intro item hmem
    have hopen := hsound.finished.symm.trans hunfinished
    rw [List.any_eq_false] at hopen
    rw [Channel.items, hqueue, List.append_nil, List.dropLast_concat] at hmem
    simpa using hopen item hmem
  | dropped =>
    intro item hmem
    rw [Channel.items, Channel.dropStream, List.append_nil] at hmem
    cases hqueue : s.chan.queue with
    | nil => exact h item (by rwa [Channel.items, hqueue, List.append_nil])
    | cons first rest =>
      refine h item ?_
      rw [Channel.items, hqueue, List.dropLast_append_of_ne_nil (List.cons_ne_nil _ _)]
      exact List.mem_append_left _ (List.dropLast_subset _ hmem)

end State

theorem reachable_closes {s : State} (hs : Reachable (system ext) s) : Closes s.chan := by
  induction hs with
  | init hinit =>
    obtain ⟨handle, body, -, rfl⟩ := hinit
    intro item hmem
    cases hmem
  | step hs _ hst ih => exact State.closes_step (reachable_sound hs.reachable) ih hst

/-! ### Undisturbed runs -/

/-- The frames that the transport still has after some actions. -/
def framesLeft (frames : List (Option (List UInt8))) (actions : List Action) :
    List (Option (List UInt8)) :=
  actions.foldl (fun frames a => framesAfter a frames) frames

theorem Undisturbed.append {frames : List (Option (List UInt8))} {actions more : List Action}
    (h : Undisturbed frames actions) (hmore : Undisturbed (framesLeft frames actions) more) :
    Undisturbed frames (actions ++ more) := by
  induction actions generalizing frames with
  | nil => exact hmore
  | cons a actions ih => exact ⟨h.1, h.2.1, ih h.2.2 hmore⟩

section Runs
variable {s t : State} {frames : List (Option (List UInt8))} {d : Delivery}

/-- What an undisturbed run keeps. -/
structure Underway (ext : Externals) (s : State) (frames : List (Option (List UInt8)))
    (d : Delivery) : Prop where
  calm : Calm s
  heading : Heading ext s frames d
  closes : Closes s.chan

theorem Underway.next {a : Action} {s' : State} (h : Underway ext s frames d)
    (hun : undisturbed a = true) (hans : Answers a frames) (hst : step ext s a = some s') :
    Underway ext s' (framesAfter a frames) d := by
  obtain ⟨hcalm, hheading⟩ := State.heading_step h.calm h.heading hun hans hst
  exact ⟨hcalm, hheading, State.closes_step h.calm.sound h.closes hst⟩

theorem Underway.run {actions : List Action} (h : Underway ext s frames d)
    (hun : Undisturbed frames actions) (hrun : (system ext).run s actions = some t) :
    Underway ext t (framesLeft frames actions) d := by
  induction actions generalizing s frames with
  | nil =>
    cases hrun
    exact h
  | cons a actions ih =>
    obtain ⟨s', hst, hrun⟩ := Option.bind_eq_some_iff.mp hrun
    exact ih (h.next hun.1 hun.2.1 hst) hun.2.2 hrun

theorem Underway.start (id : RequestId) (request : List UInt8)
    (frames : List (Option (List UInt8))) :
    Underway ext (startGeneration (.new id) (.ok request)) frames
      (outcome ext .default none frames) where
  calm := calm_start id request
  heading := heading_start id request frames
  closes := by
    have hinit : (system ext).init (startGeneration (.new id) (.ok request)) :=
      ⟨_, _, ⟨id, .inl rfl⟩, rfl⟩
    exact reachable_closes (.init hinit)

/-- Once `collect` has returned, the run has ended, and what it returned is what was delivered. -/
theorem Underway.gives {result : Except GenerationStreamError GenerationOutcome}
    (h : Underway ext s frames d) (hreturned : s.collecting = .returned result) :
    d.Gives result := by
  obtain ⟨before, item, after, hdelivered, -, hterminal, -⟩ := collect_returned hreturned
  have hitem : item ∈ s.chan.items := by
    rw [Channel.items, hdelivered]
    simp
  have hended : s.pc.ended = true := by
    by_contra hopen
    rw [h.calm.sound.quiet (Bool.eq_false_iff.mpr hopen) item hitem] at hterminal
    cases hterminal
  have hdelivers : Delivers s.chan d := by
    rcases h.heading with ⟨-, hdelivers⟩ | ⟨rest, hrest, -⟩
    · exact hdelivers
    · unfold Pc.ended at hended
      split at hended
      · simp [future, ‹s.pc = _›] at hrest
      · simp [future, ‹s.pc = _›] at hrest
      · cases hended
  exact gives_of_returned h.closes hdelivers hreturned

/-- A consumer that goes on reading gets everything. -/
theorem Underway.drains (h : Underway ext s frames d) :
    ∃ more t, (system ext).run s more = some t ∧ Undisturbed frames more ∧ t.pc = s.pc ∧
      t.chan.delivered = s.chan.items := by
  generalize hqueue : s.chan.queue = queue
  induction queue generalizing s with
  | nil => exact ⟨[], s, rfl, trivial, rfl, by rw [Channel.items, hqueue, List.append_nil]⟩
  | cons item rest ih =>
    have hunfinished : s.chan.stream.finished = false := by
      rw [h.calm.sound.finished, List.any_eq_false]
      intro other hother
      have hclosed := h.closes other ?_
      · simp [hclosed]
      · rw [Channel.items, hqueue, List.dropLast_append_of_ne_nil (List.cons_ne_nil _ _)]
        exact List.mem_append_left _ hother
    have hst : step ext s .next = some { s with chan := { s.chan with
        queue := rest
        stream := s.chan.stream.observe item
        delivered := s.chan.delivered ++ [item] } } := by
      simp only [step, h.calm.alive, if_true, Channel.next_cons hunfinished hqueue, Option.map_some]
    have hans : Answers .next frames := fun _ hframe => by cases hframe
    obtain ⟨more, t, hrun, hun, hpc, hdelivered⟩ := ih (h.next rfl hans hst) rfl
    refine ⟨.next :: more, t, ?_, ⟨rfl, hans, hun⟩, hpc, ?_⟩
    · rw [System.run, show (system ext).step s .next = _ from hst]
      exact hrun
    · rw [hdelivered, Channel.items, Channel.items, hqueue]
      simp

/-- The run can be brought to its end and the stream read to its end. -/
theorem Underway.collects (h : Underway ext s frames d) :
    ∃ more t result, (system ext).run s more = some t ∧ Undisturbed frames more ∧
      t.collecting = .returned result ∧ d.Gives result := by
  obtain ⟨actions, ended, hrun, hun, hdone⟩ := canEnd_of_heading h.calm h.heading
  have hended := h.run hun hrun
  obtain ⟨more, t, hdrain, hmore, hpc, hdelivered⟩ := hended.drains
  have hterminal : ∃ item ∈ ended.chan.items, isTerminalItem item = true :=
    hended.calm.sound.reported hdone hended.calm.alive
  rw [← hdelivered] at hterminal
  obtain ⟨result, hresult⟩ := collect_returns "" hterminal
  have hall : (system ext).run s (actions ++ more) = some t := by
    rw [run_append, hrun]
    exact hdrain
  exact ⟨actions ++ more, t, result, hall, hun.append hmore, hresult,
    (h.run (hun.append hmore) hall).gives hresult⟩

end Runs

section Results
variable {frames : List (Option (List UInt8))} {result : GenerationResult}

theorem Receives.underway {actions : List Action} {t : State} (h : Receives ext frames actions t) :
    Underway ext t (framesLeft frames actions) (outcome ext .default none frames) := by
  obtain ⟨id, request, hrun, hun⟩ := h
  exact (Underway.start id request frames).run hun hrun

theorem gives_unique {d : Delivery} {other : Except GenerationStreamError GenerationOutcome}
    (h : d.Gives (.ok (.completed result))) (hother : d.Gives other) :
    other = .ok (.completed result) := by
  obtain ⟨summary, hending, rfl⟩ := h
  match other with
  | .ok (.completed _) =>
    obtain ⟨summary', hending', rfl⟩ := hother
    rw [hending] at hending'
    cases hending'
    rfl
  | .ok (.cancelled _ _) => cases hother
  | .error error =>
    rw [Delivery.Gives, hending] at hother
    cases error <;> cases hother

/-- A completion is collected in every undisturbed run exactly where it is delivered. -/
theorem collects_completed_iff :
    Collects ext frames (.ok (.completed result)) ↔
      (outcome ext .default none frames).Gives (.ok (.completed result)) := by
  constructor
  · intro h
    have hstart : Receives ext frames [] (startGeneration (.new ⟨1⟩) (.ok [])) :=
      ⟨_, _, rfl, trivial⟩
    obtain ⟨more, t, hrun, hun, hresult⟩ := h.returns _ _ hstart
    exact Receives.underway ⟨_, _, hrun, hun⟩ |>.gives hresult
  · intro h
    constructor
    · intro actions t ht
      have hunderway := ht.underway
      obtain ⟨more, t', result', hrun, hmore, hresult, hgives⟩ := hunderway.collects
      obtain ⟨id, request, -, hun⟩ := ht
      rw [gives_unique h hgives] at hresult
      exact ⟨more, t', hrun, hun.append hmore, hresult⟩
    · intro actions t other ht hother
      exact gives_unique h (ht.underway.gives hother)

/-- In one run or in all. -/
theorem collected_iff :
    (∃ actions t, Receives ext frames actions t ∧
      t.collecting = .returned (.ok (.completed result))) ↔
      (outcome ext .default none frames).Gives (.ok (.completed result)) := by
  constructor
  · rintro ⟨actions, t, ht, hresult⟩
    exact ht.underway.gives hresult
  · intro h
    have hstart : Receives ext frames [] (startGeneration (.new ⟨1⟩) (.ok [])) :=
      ⟨_, _, rfl, trivial⟩
    obtain ⟨more, t, hrun, hun, hresult⟩ := (collects_completed_iff.mpr h).returns _ _ hstart
    exact ⟨more, t, ⟨_, _, hrun, hun⟩, hresult⟩

end Results

end MehoyRuntime.Stream
