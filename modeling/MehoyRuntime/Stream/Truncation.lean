import Mathlib.Data.List.TakeWhile
import MehoyRuntime.Stream.Prefix

/-!
# Responses that end inside an event

The runs over the frames of a response, disturbed in any way. None completes with another
summary than an undisturbed one, so whether a cut response can complete is decided by the
events before the cut.
-/

namespace MehoyRuntime.Stream
open MehoyRuntime.Core TransitionSystem

variable {ext : Externals}

/-- The transport hands over the frames in order and then the end of the body, as far as it
is asked. -/
def Handed : List (Option (List UInt8)) → List Action → Prop
  | _, [] => True
  | frames, a :: as => Answers a frames ∧ Handed (framesAfter a frames) as

/-- No run over the frames completes, whatever else happens to the request. -/
def NeverCompletes (ext : Externals) (frames : List (Option (List UInt8))) : Prop :=
  ∀ handle body actions t, Accepted handle →
    (system ext).run (startGeneration handle body) actions = some t → Handed frames actions →
      ∀ id summary, .ok (.completed id summary) ∉ t.chan.items

/-- The frames decode to these payloads, none of them the marker, and leave a part of an
event in the decoder. -/
structure CutInside (frames : List (Option (List UInt8))) (payloads : List String) : Prop where
  decoded : ∃ d, SseDecoder.default.pushAll (frames.filterMap id) = (.ok payloads, d) ∧
    d.hasPartialEvent = true
  unmarked : ∀ payload ∈ payloads, isDone payload = false

theorem Decodes.of_pushAll {frames : List (Option (List UInt8))} {payloads : List String}
    {d d' : SseDecoder} (h : d.pushAll (frames.filterMap id) = (.ok payloads, d')) :
    Decodes d frames payloads := by
  induction frames generalizing d payloads with
  | nil =>
    cases h
    exact .nil
  | cons frame frames ih =>
    cases frame with
    | none => exact .skipped (ih h)
    | some chunk =>
      simp only [List.filterMap_cons, id_eq, SseDecoder.pushAll] at h
      split at h
      · cases h
      · rename_i events next hpush
        split at h
        · cases h
        · rename_i more last hrest
          cases h
          exact .pushed hpush (ih hrest)

/-! ### Disturbed runs -/

/-- A completion that is ahead of this state, or was sent, has the summary `E` has. -/
structure Destined (ext : Externals) (E : Ending) (s : State)
    (frames : List (Option (List UInt8))) : Prop where
  sent : ∀ id summary, .ok (.completed id summary) ∈ s.chan.items → E = .completed summary
  ahead : ∀ rest summary, future ext s frames = some rest → rest.ending = .completed summary →
    E = .completed summary

namespace State
variable {s s' : State} {frames frames' : List (Option (List UInt8))} {E : Ending}

/-- A step that sends nothing and goes on to the same ending, or to no completion. -/
theorem destined_of_future (h : Destined ext E s frames) (hitems : s'.chan.items = s.chan.items)
    (hfuture : ∀ rest summary, future ext s' frames' = some rest →
      rest.ending = .completed summary →
        ∃ rest', future ext s frames = some rest' ∧ rest'.ending = .completed summary) :
    Destined ext E s' frames' where
  sent id summary hmem := h.sent id summary (hitems ▸ hmem)
  ahead rest summary hrest hending := by
    obtain ⟨rest', hrest', hending'⟩ := hfuture rest summary hrest hending
    exact h.ahead rest' summary hrest' hending'

theorem destined_same (h : Destined ext E s frames) (hitems : s'.chan.items = s.chan.items)
    (hfuture : future ext s' frames' = future ext s frames) : Destined ext E s' frames' :=
  destined_of_future h hitems fun rest _ hrest hending => ⟨rest, hfuture ▸ hrest, hending⟩

/-- A step after which no completion is ahead. -/
theorem destined_lost (h : Destined ext E s frames) (hitems : s'.chan.items = s.chan.items)
    (hlost : ∀ rest summary, future ext s' frames' = some rest → rest.ending ≠ .completed summary) :
    Destined ext E s' frames' :=
  destined_of_future h hitems fun rest summary hrest hending =>
    (hlost rest summary hrest hending).elim

theorem consumeSink_items (s : State) (pc : Pc) : (s.consumeSink pc).chan.items = s.chan.items := by
  unfold consumeSink ended
  split <;> rfl

theorem consumeSink_future (ext : Externals) (s : State) (pc : Pc) (frames : List (Option (List UInt8))) :
    future ext (s.consumeSink pc) frames = none ∨
      future ext (s.consumeSink pc) frames = future ext (s.goto pc) frames := by
  unfold consumeSink
  split
  · exact .inl rfl
  · exact .inr (by cases pc <;> rfl)

theorem future_fail (s : State) (error : GenerationStreamError) (rest : Delivery)
    (summary : GenerationSummary) (h : future ext (s.fail error) frames = some rest) :
    rest.ending ≠ .completed summary := by
  rcases consumeSink_future ext s (.finishing .failed (.error error)) frames with hf | hf
  · rw [fail, hf] at h
    cases h
  · rw [fail, hf] at h
    cases error <;> simp [future, goto, endingOf] at h <;> simp [← h]

theorem destined_fail (s' : State) (h : Destined ext E s frames) (error : GenerationStreamError)
    (hitems : s'.chan.items = s.chan.items) : Destined ext E (s'.fail error) frames' :=
  destined_lost h ((s'.consumeSink_items _).trans hitems) fun rest summary hrest =>
    s'.future_fail error rest summary hrest

theorem destined_cancel (s' : State) (h : Destined ext E s frames) (cause : CancellationCause)
    (hitems : s'.chan.items = s.chan.items) : Destined ext E (s'.cancel cause) frames' := by
  refine destined_lost h ((s'.consumeSink_items _).trans hitems) fun rest summary hrest => ?_
  rcases consumeSink_future ext s' (.cancelling cause) frames' with hf | hf
  · rw [cancel, hf] at hrest
    cases hrest
  · rw [cancel, hf] at hrest
    cases hrest

theorem destined_interrupted (s' : State) (h : Destined ext E s frames) (point : AwaitPoint)
    (cause : CancellationCause) (hitems : s'.chan.items = s.chan.items) :
    Destined ext E (s'.interrupted point cause) frames' := by
  cases point with
  | reading => exact destined_lost h hitems fun rest summary hrest => by cases hrest
  | connecting | handshaking | sending | collecting =>
    exact destined_cancel s'.release h cause hitems

theorem destined_framed (hp : s.pc = .awaiting .reading .work) (h : Destined ext E s frames) :
    Destined ext E (s.framed (frames.head?.map Except.ok)) frames.tail := by
  refine destined_same h ?_ ?_
  · unfold framed
    split <;> try rfl
    split <;> rfl
  · match frames with
    | [] => simp only [future, hp]; rfl
    | none :: frames => simp only [future, hp]; rfl
    | some chunk :: frames =>
      simp only [future, hp, List.head?_cons, Option.map_some, List.tail_cons, framed, outcome]
      rcases s.decoder.push chunk with ⟨detail | payloads, decoder⟩ <;> rfl

theorem destined_handled {payloads : List String} (hp : s.pc = .handling payloads)
    (h : Destined ext E s frames) : Destined ext E (s.handlePayloads ext payloads) frames := by
  match payloads with
  | [] => exact destined_same h rfl (by simp only [future, hp]; rfl)
  | payload :: payloads =>
    simp only [handlePayloads]
    have hnow : future ext s frames = some (afterPayloads (handleAll ext s.terminal
        (payload :: payloads)) fun terminal => outcome ext s.decoder terminal frames) := by
      simp only [future, hp]
    cases hread : readPayload ext s.terminal payload with
    | marked | malformed =>
      refine destined_same h rfl ?_
      rw [hnow, handleAll, hread]
      rfl
    | skipped =>
      refine destined_same h rfl ?_
      rw [hnow, handleAll, hread]
      rfl
    | delta text terminal =>
      rw [handleAll, hread, afterPayloads_prepend] at hnow
      cases hdelta : s.chan.delta text with
      | returned alive =>
        cases alive with
        | false =>
          simp only [hdelta]
          exact destined_lost h rfl fun rest summary hrest => by cases hrest
        | true =>
          simp only [hdelta]
          refine destined_of_future h rfl fun rest summary hrest hending => ?_
          cases hrest
          exact ⟨_, hnow, hending⟩
      | sending =>
        simp only [hdelta]
        refine destined_of_future h rfl fun rest summary hrest hending => ?_
        cases hrest
        exact ⟨_, hnow, hending⟩

theorem destined_resumed {point : AwaitPoint} {outcome : WorkOutcome}
    (hpc : s.pc = .awaiting point .work) (h : Destined ext E s frames)
    (hans : Answers (.task (.pollWork outcome)) frames)
    (hst : s.resumed ext point outcome = some s') :
    Destined ext E s' (framesAfter (.task (.pollWork outcome)) frames) := by
  unfold resumed at hst
  split at hst
  case h_2 | h_4 =>
    cases hst
    refine destined_same h rfl ?_
    simp [future, hpc, goto, framesAfter, frameOf]
  case h_6 status =>
    cases hst
    by_cases hsuccess : isSuccess status = true
    · refine destined_same h rfl ?_
      simp [future, hpc, answered, hsuccess, framesAfter, frameOf, withHandle]
    · refine destined_lost h rfl fun rest summary hrest => ?_
      simp [future, answered, hsuccess] at hrest
  case h_9 outcome =>
    cases hst
    rw [hans outcome rfl]
    exact destined_framed hpc h
  case h_10 => cases hst
  all_goals
    cases hst
    exact destined_fail s.release h _ rfl

theorem destined_closed {outcome : Except Interruption EndOfBody} (hpc : s.pc = .closing outcome)
    (h : Destined ext E s frames) : Destined ext E (s.close outcome) frames := by
  rcases outcome with (cause | error) | ending
  · exact destined_cancel s.release h cause rfl
  · exact destined_fail s.release h error rfl
  · simp only [close]
    cases hterminal : s.release.terminal with
    | none => exact destined_fail s.release h _ rfl
    | some summary =>
      change Destined ext E (s.release.complete summary) frames
      refine destined_of_future h (s.release.consumeSink_items _) fun rest summary' hrest hending => ?_
      rcases consumeSink_future ext s.release (.finishing .completed
        (.ok (.completed s.release.requestId summary))) frames with hf | hf
      · rw [complete, hf] at hrest
        cases hrest
      · rw [complete, hf] at hrest
        simp only [future, goto, endingOf, Option.map_some, Option.some.injEq] at hrest
        subst hrest
        have hnow : s.terminal = some summary := hterminal
        refine ⟨⟨[], endOfBody s.terminal⟩, by simp only [future, hpc], ?_⟩
        rw [hnow]
        exact hending

theorem destined_taskStep {a : TaskAction} (h : Destined ext E s frames)
    (hans : Answers (.task a) frames) (hst : s.taskStep ext s.pc a = some s') :
    Destined ext E s' (framesAfter (.task a) frames) := by
  cases taskStep_cases hst with
  | unencoded => exact destined_fail s h _ rfl
  | started hpc =>
    refine destined_same h rfl ?_
    simp only [future, hpc]
    rfl
  | told => exact destined_interrupted s h _ _ rfl
  | @untold point hpc | @held point hpc | @pending point hpc =>
    refine destined_same h rfl ?_
    cases point <;> simp only [future, hpc] <;> rfl
  | abandoned => exact destined_interrupted s h _ _ rfl
  | resumed hpc hresumed => exact destined_resumed hpc h hans hresumed
  | elapsed hpc => exact destined_interrupted (s.withHandle _) h _ _ rfl
  | unbuilt => exact destined_fail s.release h _ rfl
  | built hpc =>
    refine destined_same h rfl ?_
    simp only [future, hpc]
    rfl
  | handled hpc => exact destined_handled hpc h
  | @emitted text rest chan hpc hsend =>
    rcases Channel.send_cases hsend with ⟨-, halive, -⟩ | ⟨-, -, -, rfl⟩
    · cases halive
    · constructor
      · intro id summary hmem
        rw [Sound.items_push, List.mem_append, List.mem_singleton] at hmem
        rcases hmem with hmem | hmem
        · exact h.sent id summary hmem
        · cases hmem
      · intro rest summary hrest hending
        refine h.ahead _ summary (by simp only [future, hpc]; rfl) ?_
        cases hrest
        exact hending
  | unheard hpc hsend =>
    rcases Channel.send_cases hsend with ⟨-, -, rfl⟩ | ⟨-, -, halive, -⟩
    · exact destined_lost h rfl fun rest summary hrest => by cases hrest
    · cases halive
  | closed hpc => exact destined_closed hpc h
  | cancelled => exact destined_lost h rfl fun rest summary hrest => by cases hrest
  | finished hpc =>
    refine destined_same h rfl ?_
    simp only [future, hpc]
    rfl
  | @announced item alive chan hpc hsend =>
    have hlost : ∀ (c : Channel) (rest : Delivery) (summary : GenerationSummary),
        future ext (State.ended { s with chan := c } .done) frames = some rest →
          rest.ending ≠ .completed summary := fun c rest summary hrest => by cases hrest
    rcases Channel.send_cases hsend with ⟨-, -, rfl⟩ | ⟨-, -, -, rfl⟩
    · exact destined_lost h rfl (hlost _)
    · refine ⟨fun id summary hmem => ?_, fun rest summary hrest hending =>
        (hlost _ rest summary hrest hending).elim⟩
      have hpush : .ok (.completed id summary) ∈ s.chan.items ++ [item] := by
        rw [← Sound.items_push]
        exact hmem
      rcases List.mem_append.mp hpush with hmem | hmem
      · exact h.sent id summary hmem
      · obtain rfl := List.mem_singleton.mp hmem
        exact h.ahead ⟨[], .completed summary⟩ summary (by simp [future, hpc, endingOf]) rfl

theorem destined_step {a : Action} (h : Destined ext E s frames) (hans : Answers a frames)
    (hst : step ext s a = some s') : Destined ext E s' (framesAfter a frames) := by
  cases step_cases hst with
  | task htask => exact destined_taskStep h hans htask
  | aborted => exact destined_lost h rfl fun rest summary hrest => by cases hrest
  | told => exact destined_same h rfl rfl
  | finished => exact h
  | read _ _ hqueue => exact destined_same h (by simp [Channel.items, hqueue]) rfl
  | gone _ _ hqueue =>
    refine ⟨fun id summary hmem => ?_, h.ahead⟩
    simp only [Channel.items, hqueue, List.append_nil, List.mem_append, List.mem_singleton] at hmem
    rcases hmem with hmem | hmem
    · exact h.sent id summary (List.mem_append_left _ hmem)
    · cases hmem
  | dropped =>
    refine ⟨fun id summary hmem => ?_, h.ahead⟩
    rw [Channel.items, Channel.dropStream, List.append_nil] at hmem
    exact h.sent id summary (List.mem_append_left _ hmem)

end State

theorem destined_run {s t : State} {frames : List (Option (List UInt8))} {E : Ending}
    {actions : List Action} (h : Destined ext E s frames) (hhanded : Handed frames actions)
    (hrun : (system ext).run s actions = some t) :
    ∀ id summary, .ok (.completed id summary) ∈ t.chan.items → E = .completed summary := by
  induction actions generalizing s frames with
  | nil =>
    cases hrun
    exact h.sent
  | cons a as ih =>
    obtain ⟨s', hst, hrun⟩ := Option.bind_eq_some_iff.mp hrun
    obtain ⟨hans, hrest⟩ := hhanded
    exact ih (State.destined_step h hans hst) hrest hrun

theorem destined_start (handle : RequestHandle) (body : Except String (List UInt8))
    (frames : List (Option (List UInt8))) :
    Destined ext (outcome ext .default none frames).ending (startGeneration handle body) frames where
  sent id summary hmem := by
    rcases List.mem_singleton.mp hmem with hitem
    cases hitem
  ahead rest summary hrest hending := by
    cases hrest
    exact hending

theorem Undisturbed.handed {frames : List (Option (List UInt8))} {actions : List Action}
    (h : Undisturbed frames actions) : Handed frames actions := by
  induction actions generalizing frames with
  | nil => trivial
  | cons a as ih => exact ⟨h.2.1, ih h.2.2⟩

/-- A response completes in some run exactly where it does undisturbed. -/
theorem neverCompletes_iff {frames : List (Option (List UInt8))} :
    NeverCompletes ext frames ↔
      ∀ summary, (outcome ext .default none frames).ending ≠ .completed summary := by
  constructor
  · intro hnever summary hcompleted
    have hends : CanEnd ext (startGeneration (.new ⟨1⟩) (.ok [])) frames := canEnd_start ⟨1⟩ [] frames
    obtain ⟨actions, t, hrun, hun, hdone⟩ := hends
    have hdelivers := heading_run (calm_start ⟨1⟩ []) (heading_start ⟨1⟩ [] frames) hun hrun hdone
    have hmem : some (Ending.completed summary) ∈ (t.chan.items.filter isTerminalItem).map endingOf := by
      rw [hdelivers.2, hcompleted]
      exact List.mem_singleton_self _
    obtain ⟨item, hitem, hending⟩ := List.mem_map.mp hmem
    obtain ⟨id, rfl⟩ : ∃ id, item = .ok (.completed id summary) := by
      rcases item with error | event
      · cases error <;> cases hending
      · cases event <;> cases hending
        exact ⟨_, rfl⟩
    exact hnever _ _ actions t ⟨⟨1⟩, .inl rfl⟩ hrun hun.handed _ _ (List.mem_of_mem_filter hitem)
  · intro hends handle body actions t _ hrun hhanded id summary hmem
    exact hends summary (destined_run (destined_start handle body frames) hhanded hrun id summary hmem)

/-! ### A cut inside an event -/

theorem endsReading_unmarked {payload : String} (h : isDone payload = false) :
    endsReading ext payload = (ext.decode payload).toOption.isNone := by
  rw [endsReading, h, Bool.false_or]

/-- Without a marker among them, payloads end in a completion where all of them are
responses and one reports why the generation finished. -/
theorem saying_completes_iff {payloads : List String}
    (hunmarked : ∀ payload ∈ payloads, isDone payload = false) :
    (∃ summary, (saying ext payloads).ending = .completed summary) ↔
      (∀ payload ∈ payloads, (ext.decode payload).toOption ≠ none) ∧
        ∃ payload ∈ payloads, reportOf ext payload ≠ none := by
  by_cases hall : ∀ payload ∈ payloads, (ext.decode payload).toOption ≠ none
  · have hreads : ∀ payload ∈ payloads, endsReading ext payload = false := by
      intro payload hmem
      rw [endsReading_unmarked (hunmarked payload hmem), Option.isNone_eq_false_iff,
        Option.isSome_iff_ne_none]
      exact hall payload hmem
    have hprocessed : processed ext payloads = payloads := by
      rw [processed, List.takeWhile_eq_self_iff]
      intro payload hmem
      simp [hreads payload hmem]
    have hstops : stopsMalformed ext payloads = false := by
      have hnone : payloads.find? (endsReading ext) = none := by
        rw [List.find?_eq_none]
        intro payload hmem
        simp [hreads payload hmem]
      rw [stopsMalformed, hnone]
    have hlast : (∃ summary, (saying ext payloads).ending = .completed summary) ↔
        lastReport ext payloads ≠ none := by
      rw [saying, hstops, hprocessed]
      cases lastReport ext payloads <;> simp [endOfBody]
    rw [hlast, lastReport, ne_eq, List.getLast?_eq_none_iff, List.filterMap_eq_nil_iff,
      and_iff_right hall]
    simp
  · have hstops : stopsMalformed ext payloads = true := by
      simp only [not_forall, ne_eq, not_not] at hall
      obtain ⟨payload, hmem, hfails⟩ := hall
      have hends : endsReading ext payload = true := by
        rw [endsReading_unmarked (hunmarked payload hmem), hfails]
        rfl
      unfold stopsMalformed
      cases hfind : payloads.find? (endsReading ext) with
      | none => simp [List.find?_eq_none.mp hfind payload hmem] at hends
      | some found => simp [hunmarked found (List.mem_of_find?_eq_some hfind)]
    rw [saying, hstops]
    simp [hall]

/-- A response cut inside an event never completes exactly where an event before the cut is
malformed, or none of them reports why the generation finished. -/
theorem cutInside_neverCompletes_iff {frames : List (Option (List UInt8))} {payloads : List String}
    (h : CutInside frames payloads) :
    NeverCompletes ext frames ↔
      (∃ payload ∈ payloads, (ext.decode payload).toOption = none) ∨
        ∀ payload ∈ payloads, reportOf ext payload = none := by
  obtain ⟨d, hdecoded, -⟩ := h.decoded
  have houtcome : outcome ext .default none (frames ++ []) = _ :=
    outcome_decodes (Decodes.of_pushAll hdecoded) (.inl rfl)
  rw [List.append_nil, saying_eq] at houtcome
  have hcompletes : (∃ summary, (saying ext payloads).ending = .completed summary) ↔ _ :=
    saying_completes_iff h.unmarked
  rw [neverCompletes_iff, houtcome, ← not_exists, hcompletes, not_and_or]
  simp

/-- The start of an event: `data: {`. -/
def eventStart : List UInt8 := [0x64, 0x61, 0x74, 0x61, 0x3a, 0x20, 0x7b]

theorem cutInside_sampleFrame : CutInside [some sampleFrame, some eventStart] [samplePayload] where
  decoded := ⟨⟨eventStart, "", false⟩, by decide, by decide⟩
  unmarked := by decide

theorem cutInside_neverCompletes_sample :
    NeverCompletes sampleExternals [some sampleFrame, some eventStart] :=
  (cutInside_neverCompletes_iff cutInside_sampleFrame).mpr (.inr (by decide))

/-- The sample payload, reporting why the generation stopped. -/
def stoppingExternals : Externals where
  decode payload :=
    if payload = samplePayload then .ok ⟨[⟨"x", some "stop"⟩], none⟩
    else .error "expected value at line 1 column 1"
  decodeError _ := none

/-- An event that reports why the generation stopped, and the start of another. -/
theorem cutInside_completes : ¬ ∀ (ext : Externals) (frames : List (Option (List UInt8)))
    (payloads : List String), CutInside frames payloads → NeverCompletes ext frames := by
  intro hall
  have hnever := hall stoppingExternals _ _ cutInside_sampleFrame
  rw [neverCompletes_iff] at hnever
  exact hnever ⟨.stop, none⟩ (by decide)

end MehoyRuntime.Stream
