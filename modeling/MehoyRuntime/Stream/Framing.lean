import Mathlib.Algebra.GroupWithZero.Nat
import MehoyRuntime.Stream.Reference
import MehoyRuntime.Stream.Wire

/-!
# What a response means, frame by frame and as a whole

`outcome` is what `read` makes of a response that arrives in given frames, when nobody
disturbs it. `conclude` reads the lines of the whole response instead. The two differ
only through a malformed data line: a push returns the events of its chunk all together
or not at all, so the events before such a line are lost where it is in their frame.
-/

namespace MehoyRuntime.Stream
open MehoyRuntime.Core
open SseDecoder (newline carriageReturn)

/-- The kinds of terminal items of an undisturbed response. -/
inductive Ending
  | completed (summary : GenerationSummary)
  | malformedEvent
  | unexpectedEnd
  deriving DecidableEq, Repr

structure Delivery where
  deltas : List String
  ending : Ending
  deriving DecidableEq, Repr

namespace Delivery

def prepend (deltas : List String) (d : Delivery) : Delivery := ⟨deltas ++ d.deltas, d.ending⟩

theorem prepend_nil (d : Delivery) : d.prepend [] = d := rfl

theorem prepend_prepend (a b : List String) (d : Delivery) :
    (d.prepend b).prepend a = d.prepend (a ++ b) := by
  simp [prepend]

end Delivery

/-- How the end of the body ends the stream. -/
def endOfBody : Option GenerationSummary → Ending
  | some summary => .completed summary
  | none => .unexpectedEnd

/-- The payloads in order: the deltas sent, and then the ending of the stream or the
summary recorded by the time the payloads are through. -/
def handleAll (ext : Externals) (terminal : Option GenerationSummary) :
    List String → List String × Except Ending (Option GenerationSummary)
  | [] => ([], .ok terminal)
  | payload :: rest =>
    match readPayload ext terminal payload with
    | .marked => ([], .error (endOfBody terminal))
    | .malformed _ => ([], .error .malformedEvent)
    | .skipped => handleAll ext terminal rest
    | .delta text terminal =>
      ((if text.isEmpty then [] else [text]) ++ (handleAll ext terminal rest).1,
        (handleAll ext terminal rest).2)

/-- What follows payloads that are through. -/
def afterPayloads (handled : List String × Except Ending (Option GenerationSummary))
    (next : Option GenerationSummary → Delivery) : Delivery :=
  match handled.2 with
  | .error ending => ⟨handled.1, ending⟩
  | .ok terminal => (next terminal).prepend handled.1

/-- The response in frames; a frame without data is passed over. -/
def outcome (ext : Externals) :
    SseDecoder → Option GenerationSummary → List (Option (List UInt8)) → Delivery
  | _, terminal, [] => ⟨[], endOfBody terminal⟩
  | decoder, terminal, none :: frames => outcome ext decoder terminal frames
  | decoder, terminal, some chunk :: frames =>
    match decoder.push chunk with
    | (.error _, _) => ⟨[], .malformedEvent⟩
    | (.ok payloads, decoder) =>
      afterPayloads (handleAll ext terminal payloads) fun terminal =>
        outcome ext decoder terminal frames

def bodyOf (frames : List (Option (List UInt8))) : List UInt8 := (frames.filterMap id).flatten

/-- The events of the whole response in order, and then its malformed line or its end. -/
def conclude (ext : Externals) (terminal : Option GenerationSummary)
    (fed : List String × Except String SseDecoder) : Delivery :=
  afterPayloads (handleAll ext terminal fed.1) fun terminal =>
    match fed.2 with
    | .error _ => ⟨[], .malformedEvent⟩
    | .ok _ => ⟨[], endOfBody terminal⟩

/-- Nothing of these events shows before they are through or a malformed payload ends the
stream: no delta, and no end-of-stream marker. -/
def quiet (ext : Externals) (terminal : Option GenerationSummary) : List String → Bool
  | [] => true
  | payload :: rest =>
    match readPayload ext terminal payload with
    | .marked => false
    | .malformed _ => true
    | .skipped => quiet ext terminal rest
    | .delta text terminal => text.isEmpty && quiet ext terminal rest

/-- No complete data line is malformed, or the events before the first one that is are
quiet. -/
def framingFree (ext : Externals) (terminal : Option GenerationSummary)
    (fed : List String × Except String SseDecoder) : Bool :=
  match fed.2 with
  | .ok _ => true
  | .error _ => quiet ext terminal fed.1

variable {ext : Externals}

/-! ### Payloads -/

theorem afterPayloads_prepend (deltas : List String)
    (handled : List String × Except Ending (Option GenerationSummary))
    (next : Option GenerationSummary → Delivery) :
    afterPayloads (deltas ++ handled.1, handled.2) next = (afterPayloads handled next).prepend deltas := by
  unfold afterPayloads
  cases handled.2 with
  | error ending => rfl
  | ok terminal => exact (Delivery.prepend_prepend deltas handled.1 _).symm

theorem afterPayloads_append (terminal : Option GenerationSummary) (first second : List String)
    (next : Option GenerationSummary → Delivery) :
    afterPayloads (handleAll ext terminal (first ++ second)) next =
      afterPayloads (handleAll ext terminal first) fun terminal =>
        afterPayloads (handleAll ext terminal second) next := by
  induction first generalizing terminal with
  | nil => rfl
  | cons payload rest ih =>
    simp only [List.cons_append, handleAll]
    cases readPayload ext terminal payload with
    | marked => rfl
    | malformed detail => rfl
    | skipped => exact ih terminal
    | delta text terminal =>
      rw [afterPayloads_prepend, afterPayloads_prepend, ih terminal]

theorem conclude_append (terminal : Option GenerationSummary) (first second : List String)
    (result : Except String SseDecoder) :
    conclude ext terminal (first ++ second, result) =
      afterPayloads (handleAll ext terminal first) fun terminal =>
        conclude ext terminal (second, result) :=
  afterPayloads_append terminal first second _

/-- A malformed line after events shows nothing of them exactly where they are quiet. -/
theorem conclude_error_iff (terminal : Option GenerationSummary) (events : List String)
    (detail : String) :
    conclude ext terminal (events, .error detail) = ⟨[], .malformedEvent⟩ ↔
      quiet ext terminal events = true := by
  induction events generalizing terminal with
  | nil => simp [conclude, handleAll, afterPayloads, Delivery.prepend, quiet]
  | cons payload rest ih =>
    simp only [conclude, handleAll, quiet] at ih ⊢
    cases readPayload ext terminal payload with
    | marked => cases terminal <;> simp [afterPayloads, endOfBody]
    | malformed detail => simp [afterPayloads]
    | skipped => exact ih terminal
    | delta text terminal =>
      rw [afterPayloads_prepend, Bool.and_eq_true, ← ih terminal]
      cases htext : text.isEmpty with
      | false => simp [Delivery.prepend]
      | true =>
        rw [if_pos rfl, Delivery.prepend_nil]
        simp

theorem quiet_append {terminal : Option GenerationSummary} {first second : List String}
    (h : quiet ext terminal (first ++ second) = true) :
    quiet ext terminal first = true ∧
      ∀ terminal', (handleAll ext terminal first).2 = .ok terminal' →
        quiet ext terminal' second = true := by
  induction first generalizing terminal with
  | nil =>
    refine ⟨rfl, fun terminal' hok => ?_⟩
    cases hok
    exact h
  | cons payload rest ih =>
    simp only [List.cons_append, quiet, handleAll] at h ⊢
    cases hp : readPayload ext terminal payload with
    | marked => simp [hp] at h
    | malformed detail => simp
    | skipped =>
      simp only [hp] at h
      exact ih h
    | delta text terminal' =>
      simp only [hp, Bool.and_eq_true] at h ⊢
      exact ⟨⟨h.1, (ih h.2).1⟩, (ih h.2).2⟩

/-! ### What the decoder holds is bounded by what it has read -/

def lineBytes (lines : List (List UInt8)) : ℕ := (lines.map fun line => line.length + 1).sum

theorem splitLines_length (bytes : List UInt8) :
    lineBytes (splitLines bytes).1 + (splitLines bytes).2.length ≤ bytes.length := by
  induction bytes using splitLines.induct with
  | case1 => exact Nat.le_refl _
  | case2 rest ih =>
    simp only [splitLines_newline, lineBytes, List.map_cons, List.sum_cons, List.length_nil,
      List.length_cons] at ih ⊢
    omega
  | case3 h => decide
  | case4 rest hb ih =>
    simp only [splitLines_pair, lineBytes, List.map_cons, List.sum_cons, List.length_nil,
      List.length_cons] at ih ⊢
    omega
  | case5 c rest hc hb ih =>
    simp only [splitLines_return hc, lineBytes, List.map_cons, List.sum_cons, List.length_nil,
      List.length_cons] at ih ⊢
    omega
  | case6 c rest hn hr ih =>
    rw [splitLines_other hn hr]
    generalize splitLines rest = split at ih ⊢
    rcases split with ⟨_ | ⟨line, lines⟩, undecided⟩
    · simpa [extendLine, lineBytes] using ih
    · simp only [extendLine, lineBytes, List.map_cons, List.sum_cons, List.length_cons] at ih ⊢
      omega

theorem dataValue_length {line value : List UInt8} (h : dataValue line = some value) :
    value.length ≤ line.length := by
  unfold dataValue at h
  have hdrop := (List.dropWhile_sublist (l := line) (· ≠ SseDecoder.colon)).length_le
  split at h
  · split at h
    · cases h
      exact Nat.zero_le _
    · rename_i raw hraw
      cases h
      rw [hraw, List.length_cons] at hdrop
      split
      · rw [List.length_tail]
        omega
      · omega
  · cases h

def eventBytes (events : List String) : ℕ := (events.map String.utf8ByteSize).sum

/-- A line adds no more to the data, a joining newline included, than it takes with its
ending; a dispatch moves the data into the event. -/
theorem consume_size {d d' : SseDecoder} {line : List UInt8} {event : Option String}
    (h : d.consume line = (.ok event, d')) :
    eventBytes event.toList + d'.data.utf8ByteSize ≤ d.data.utf8ByteSize + (line.length + 1) := by
  rcases consume_cases h with ⟨-, -, rfl, rfl⟩ | ⟨-, -, rfl, rfl⟩ |
    ⟨value, decoded, hvalue, hdecoded, rfl, rfl⟩
  · simp [eventBytes]
  · simp [eventBytes]
  · have hlen : decoded.utf8ByteSize = value.length := by
      rw [← bytesOf_fromUtf8 hdecoded]
      rfl
    have hvalue := dataValue_length hvalue
    have hnewline : ("\n" : String).utf8ByteSize = 1 := rfl
    simp only [eventBytes, joined, String.utf8ByteSize_append, Option.toList_none, List.map_nil,
      List.sum_nil]
    split
    · rw [String.utf8ByteSize_append, hnewline]
      omega
    · omega

theorem eventBytes_append (events more : List String) :
    eventBytes (events ++ more) = eventBytes events + eventBytes more := by
  simp [eventBytes]

theorem feed_size {d d' : SseDecoder} {lines : List (List UInt8)} {events : List String}
    (h : d.feed lines = (events, .ok d')) :
    eventBytes events + d'.data.utf8ByteSize ≤ d.data.utf8ByteSize + lineBytes lines := by
  induction lines generalizing d events with
  | nil =>
    cases h
    simp [eventBytes]
  | cons line lines ih =>
    rcases hc : d.consume line with ⟨detail | event, after⟩
    · simp [SseDecoder.feed, hc] at h
    · rcases hf : after.feed lines with ⟨found, result⟩
      rw [SseDecoder.feed_cons hc, hf] at h
      cases h
      have hrest := ih hf
      have hline := consume_size hc
      rw [eventBytes_append]
      simp only [lineBytes, List.map_cons, List.sum_cons] at hrest ⊢
      omega

/-- The bytes that count towards the bound of a decoder. -/
def heldBytes (d : SseDecoder) : ℕ := d.buffer.length + d.data.utf8ByteSize

/-- A push neither makes nor keeps more bytes than there were before it and in its chunk. -/
theorem push_conserves {d d' : SseDecoder} {chunk : List UInt8} {events : List String}
    (h : d.push chunk = (.ok events, d')) :
    eventBytes events + heldBytes d' ≤ heldBytes d + chunk.length ∧
      d'.buffer.length ≤ d.buffer.length + chunk.length := by
  obtain ⟨hbuffer, hdata⟩ := SseDecoder.push_fits h
  have hpush := SseDecoder.push_eq hbuffer hdata
  have hsplit := splitLines_length (d.buffer ++ chunk)
  rw [List.length_append] at hsplit
  rcases hf : d.feed (splitLines (d.buffer ++ chunk)).1 with ⟨found, detail | fed⟩
  · rw [hf, h] at hpush
    cases hpush
  · rw [hf, h] at hpush
    cases hpush
    have hsize := feed_size hf
    simp only [heldBytes, SseDecoder.withBuffer]
    omega

/-- A push within the bound: the events of the lines it completes, or an error where one of
them is malformed. -/
theorem push_within {d : SseDecoder} {chunk : List UInt8}
    (h : heldBytes d + chunk.length ≤ maxPendingBytes) :
    (∃ events detail, d.feed (splitLines (d.buffer ++ chunk)).1 = (events, .error detail) ∧
      (d.push chunk).1 = .error detail) ∨
    ∃ events fed d', d.feed (splitLines (d.buffer ++ chunk)).1 = (events, .ok fed) ∧
      d.push chunk = (.ok events, d') ∧ d' = fed.withBuffer (splitLines (d.buffer ++ chunk)).2 ∧
      heldBytes d' ≤ heldBytes d + chunk.length := by
  have hfits := h
  unfold heldBytes at hfits
  have hpush := @SseDecoder.push_eq d chunk (by omega) (by omega)
  rcases hf : d.feed (splitLines (d.buffer ++ chunk)).1 with ⟨events, detail | fed⟩
  · rw [hf] at hpush
    exact .inl ⟨events, detail, rfl, hpush⟩
  · rw [hf] at hpush
    obtain ⟨hconserved, -⟩ := push_conserves hpush
    exact .inr ⟨events, fed, _, rfl, hpush, rfl, by omega⟩

/-! ### Frames and the whole -/

/-- What a decoder makes of all the bytes that are still to come. -/
def wholeOf (d : SseDecoder) (bytes : List UInt8) : List String × Except String SseDecoder :=
  d.feed (splitLines (d.buffer ++ bytes)).1

def Undecided (d : SseDecoder) : Prop := splitLines d.buffer = ([], d.buffer)

theorem wholeOf_nil {d : SseDecoder} (h : Undecided d) : wholeOf d [] = ([], .ok d) := by
  rw [wholeOf, List.append_nil, show splitLines d.buffer = _ from h]
  rfl

theorem undecided_splitLines (fed : SseDecoder) (bytes : List UInt8) :
    Undecided (fed.withBuffer (splitLines bytes).2) := by
  have h := splitLines_append bytes []
  simp only [List.append_nil, Prod.ext_iff, List.self_eq_append_right] at h
  exact Prod.ext h.1 h.2.symm

theorem conclude_map (terminal : Option GenerationSummary) (events : List String)
    (result : Except String SseDecoder) (f : SseDecoder → SseDecoder) :
    conclude ext terminal (events, result.map f) = conclude ext terminal (events, result) := by
  cases result <;> rfl

theorem wholeOf_append {d fed : SseDecoder} {chunk : List UInt8} {events : List String}
    (h : d.feed (splitLines (d.buffer ++ chunk)).1 = (events, .ok fed)) (rest : List UInt8) :
    ∃ result, wholeOf (fed.withBuffer (splitLines (d.buffer ++ chunk)).2) rest =
        ((fed.feed (splitLines ((splitLines (d.buffer ++ chunk)).2 ++ rest)).1).1,
          result.map fun d' => d'.withBuffer (splitLines (d.buffer ++ chunk)).2) ∧
      wholeOf d (chunk ++ rest) =
        (events ++ (fed.feed (splitLines ((splitLines (d.buffer ++ chunk)).2 ++ rest)).1).1,
          result) := by
  refine ⟨_, SseDecoder.feed_withBuffer fed _ _, ?_⟩
  rw [wholeOf, ← List.append_assoc, splitLines_append, SseDecoder.feed_append h]
  rfl

/-- The whole after a push that went through. -/
theorem conclude_push {d fed : SseDecoder} {chunk : List UInt8} {events : List String}
    (h : d.feed (splitLines (d.buffer ++ chunk)).1 = (events, .ok fed))
    (terminal : Option GenerationSummary) (rest : List UInt8) :
    conclude ext terminal (wholeOf d (chunk ++ rest)) =
      afterPayloads (handleAll ext terminal events) fun terminal =>
        conclude ext terminal (wholeOf (fed.withBuffer (splitLines (d.buffer ++ chunk)).2) rest) := by
  obtain ⟨result, hrest, hall⟩ := wholeOf_append h rest
  rw [hall, hrest, conclude_append]
  simp only [conclude_map]

theorem framingFree_push {d fed : SseDecoder} {chunk : List UInt8} {events : List String}
    (h : d.feed (splitLines (d.buffer ++ chunk)).1 = (events, .ok fed))
    {terminal terminal' : Option GenerationSummary} {rest : List UInt8}
    (hfree : framingFree ext terminal (wholeOf d (chunk ++ rest)) = true)
    (hok : (handleAll ext terminal events).2 = .ok terminal') :
    framingFree ext terminal'
      (wholeOf (fed.withBuffer (splitLines (d.buffer ++ chunk)).2) rest) = true := by
  obtain ⟨result, hrest, hall⟩ := wholeOf_append h rest
  rw [hall] at hfree
  rw [hrest]
  cases result with
  | ok d' => rfl
  | error detail => exact (quiet_append hfree).2 terminal' hok

theorem wholeOf_error {d : SseDecoder} {chunk : List UInt8} {events : List String}
    {detail : String} (h : d.feed (splitLines (d.buffer ++ chunk)).1 = (events, .error detail))
    (rest : List UInt8) : wholeOf d (chunk ++ rest) = (events, .error detail) := by
  rw [wholeOf, ← List.append_assoc, splitLines_append]
  exact SseDecoder.feed_append_error h _

theorem afterPayloads_congr {handled : List String × Except Ending (Option GenerationSummary)}
    {next next' : Option GenerationSummary → Delivery}
    (h : ∀ terminal, handled.2 = .ok terminal → next terminal = next' terminal) :
    afterPayloads handled next = afterPayloads handled next' := by
  unfold afterPayloads
  split
  · rfl
  · rename_i terminal hok
    rw [h terminal hok]

/-- One frame: where its malformed line loses nothing that shows, and what follows it is
read as a whole, the frame and what follows it are. -/
theorem outcome_cons {d : SseDecoder} {terminal : Option GenerationSummary}
    {chunk : List UInt8} {frames : List (Option (List UInt8))} {rest : List UInt8}
    (hsize : heldBytes d + chunk.length ≤ maxPendingBytes)
    (herror : ∀ events detail, d.feed (splitLines (d.buffer ++ chunk)).1 = (events, .error detail) →
      quiet ext terminal events = true)
    (hnext : ∀ events fed d', d.feed (splitLines (d.buffer ++ chunk)).1 = (events, .ok fed) →
      d' = fed.withBuffer (splitLines (d.buffer ++ chunk)).2 →
      heldBytes d' ≤ heldBytes d + chunk.length →
      ∀ terminal', (handleAll ext terminal events).2 = .ok terminal' →
        outcome ext d' terminal' frames = conclude ext terminal' (wholeOf d' rest)) :
    outcome ext d terminal (some chunk :: frames) =
      conclude ext terminal (wholeOf d (chunk ++ rest)) := by
  rcases push_within hsize with ⟨events, detail, hfeed, hpush⟩ | ⟨events, fed, d', hfeed, hpush, hd', hle⟩
  · rw [wholeOf_error hfeed rest, (conclude_error_iff terminal events detail).mpr (herror _ _ hfeed)]
    unfold outcome
    split
    · rfl
    · rename_i hpush'
      rw [hpush'] at hpush
      cases hpush
  · rw [conclude_push hfeed terminal rest, ← hd']
    simp only [outcome, hpush]
    exact afterPayloads_congr (hnext events fed d' hfeed hd' hle)

/-- A response whose framing is free is read as a whole, however it is framed. -/
theorem outcome_eq_conclude {d : SseDecoder} {terminal : Option GenerationSummary}
    {frames : List (Option (List UInt8))} (hd : Undecided d)
    (hsize : heldBytes d + (bodyOf frames).length ≤ maxPendingBytes)
    (hfree : framingFree ext terminal (wholeOf d (bodyOf frames)) = true) :
    outcome ext d terminal frames = conclude ext terminal (wholeOf d (bodyOf frames)) := by
  induction frames generalizing d terminal with
  | nil =>
    rw [show bodyOf [] = [] from rfl, wholeOf_nil hd]
    rfl
  | cons frame frames ih =>
    cases frame with
    | none => exact ih hd hsize hfree
    | some chunk =>
      have hbody : bodyOf (some chunk :: frames) = chunk ++ bodyOf frames := by simp [bodyOf]
      rw [hbody, List.length_append] at hsize
      rw [hbody] at hfree ⊢
      refine outcome_cons (by omega) ?_ ?_
      · intro events detail hfeed
        rw [wholeOf_error hfeed] at hfree
        exact hfree
      · intro events fed d' hfeed hd' hle terminal' hok
        subst hd'
        exact ih (undecided_splitLines _ _) (by omega) (framingFree_push hfeed hfree hok)

theorem splitLines_single {undecided : List UInt8} (h : (splitLines undecided).1 = []) (b : UInt8) :
    (splitLines (undecided ++ [b])).1.length ≤ 1 := by
  induction undecided using splitLines.induct with
  | case1 =>
    by_cases hn : b = newline
    · rw [hn]
      decide
    · by_cases hr : b = carriageReturn
      · rw [hr]
        decide
      · rw [List.nil_append, splitLines_other hn hr]
        exact Nat.zero_le 1
  | case2 rest ih => rw [splitLines_newline] at h; cases h
  | case3 h =>
    by_cases hn : b = newline
    · rw [hn]
      decide
    · rw [List.singleton_append, splitLines_return hn]
      by_cases hr : b = carriageReturn
      · rw [hr]
        decide
      · rw [splitLines_other hn hr]
        exact Nat.le_refl 1
  | case4 rest hb ih => rw [splitLines_pair] at h; cases h
  | case5 c rest hc hb ih => rw [splitLines_return hc] at h; cases h
  | case6 c rest hn hr ih =>
    rw [splitLines_other hn hr] at h
    have hnone : (splitLines rest).1 = [] := by
      rcases hs : splitLines rest with ⟨_ | ⟨line, lines⟩, undecided⟩
      · rfl
      · rw [hs] at h
        cases h
    rw [List.cons_append, splitLines_other hn hr]
    have hle := ih hnone
    generalize splitLines (rest ++ [b]) = split at hle ⊢
    rcases split with ⟨_ | ⟨line, lines⟩, undecided⟩ <;> exact hle

theorem feed_error_single {d : SseDecoder} {lines : List (List UInt8)} {events : List String}
    {detail : String} (hlines : lines.length ≤ 1) (h : d.feed lines = (events, .error detail)) :
    events = [] := by
  match lines, hlines with
  | [], _ => cases h
  | [line], _ =>
    rcases hc : d.consume line with ⟨detail' | event, after⟩
    · simp only [SseDecoder.feed, hc, Prod.mk.injEq] at h
      exact h.1.symm
    · rw [SseDecoder.feed_cons hc] at h
      cases h

/-- Byte by byte, no frame has an event before a malformed line. -/
theorem outcome_bytes {d : SseDecoder} {terminal : Option GenerationSummary} {bytes : List UInt8}
    (hd : Undecided d) (hsize : heldBytes d + bytes.length ≤ maxPendingBytes) :
    outcome ext d terminal (bytes.map fun b => some [b]) =
      conclude ext terminal (wholeOf d bytes) := by
  induction bytes generalizing d terminal with
  | nil =>
    rw [wholeOf_nil hd]
    rfl
  | cons b bytes ih =>
    rw [List.length_cons] at hsize
    refine @outcome_cons ext d terminal [b] _ bytes (by rw [List.length_singleton]; omega) ?_ ?_
    · intro events detail hfeed
      have hnone : (splitLines d.buffer).1 = [] := by rw [show splitLines d.buffer = _ from hd]
      rw [feed_error_single (splitLines_single hnone b) hfeed]
      rfl
    · intro events fed d' hfeed hd' hle terminal' _
      subst hd'
      refine ih (undecided_splitLines _ _) ?_
      rw [List.length_singleton] at hle
      omega

/-- In one frame, a malformed line takes every event with it. -/
theorem outcome_single {d : SseDecoder} {terminal : Option GenerationSummary} {bytes : List UInt8}
    {events : List String} {detail : String} (hsize : heldBytes d + bytes.length ≤ maxPendingBytes)
    (h : wholeOf d bytes = (events, .error detail)) :
    outcome ext d terminal [some bytes] = ⟨[], .malformedEvent⟩ := by
  rcases push_within hsize with ⟨_, _, -, hpush⟩ | ⟨_, _, _, hfeed, -⟩
  · unfold outcome
    split
    · rfl
    · rename_i hpush'
      rw [hpush'] at hpush
      cases hpush
  · rw [wholeOf, hfeed] at h
    cases h

theorem bodyOf_single (body : List UInt8) : bodyOf [some body] = body := by
  simp [bodyOf]

theorem bodyOf_bytes (body : List UInt8) : bodyOf (body.map fun b => some [b]) = body := by
  induction body with
  | nil => rfl
  | cons b rest ih =>
    simp only [bodyOf, List.map_cons, List.filterMap_cons, id, List.flatten_cons] at ih ⊢
    rw [ih]
    rfl

/-- The framings of a response all come to the same exactly where its framing is free. -/
theorem outcome_unique_iff {body : List UInt8} (hbody : body.length ≤ maxPendingBytes) :
    (∀ frames frames', bodyOf frames = body → bodyOf frames' = body →
      outcome ext .default none frames = outcome ext .default none frames') ↔
    framingFree ext none (wholeOf .default body) = true := by
  have hsize : heldBytes .default + body.length ≤ maxPendingBytes := by
    simpa [heldBytes, SseDecoder.default] using hbody
  constructor
  · intro hunique
    have hsame := hunique [some body] (body.map fun b => some [b]) (bodyOf_single body) (bodyOf_bytes body)
    rw [outcome_bytes (show Undecided .default from rfl) hsize] at hsame
    rcases hfed : wholeOf .default body with ⟨events, detail | d⟩
    · rw [outcome_single hsize hfed, hfed] at hsame
      exact (conclude_error_iff none events detail).mp hsame.symm
    · rfl
  · intro hfree frames frames' hframes hframes'
    have hwhole (frames : List (Option (List UInt8))) (h : bodyOf frames = body) :
        outcome ext .default none frames = conclude ext none (wholeOf .default body) := by
      subst h
      exact outcome_eq_conclude rfl hsize hfree
    rw [hwhole frames hframes, hwhole frames' hframes']

end MehoyRuntime.Stream
