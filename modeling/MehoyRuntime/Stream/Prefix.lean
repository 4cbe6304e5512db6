import MehoyRuntime.Stream.Undisturbed

/-!
# What the events of a response say

The payloads of a response up to the first one that ends the reading, and the stream they
stand for: their texts, and the last reason to finish that one of them gave.
-/

namespace MehoyRuntime.Stream
open MehoyRuntime.Core

section Payloads
variable (ext : Externals)

/-- The marker, or a payload that is not a response. -/
def endsReading (payload : String) : Bool := isDone payload || (ext.decode payload).toOption.isNone

def processed (payloads : List String) : List String :=
  payloads.takeWhile fun payload => !endsReading ext payload

def firstChoice (payload : String) : Option WireChoice :=
  (ext.decode payload).toOption.bind fun parsed => parsed.choices.head?

def textOf (payload : String) : Option String :=
  ((firstChoice ext payload).map (·.text)).filter fun text => text ≠ ""

def reportOf (payload : String) : Option GenerationSummary :=
  (ext.decode payload).toOption.bind fun parsed =>
    parsed.choices.head?.bind fun choice =>
      choice.finishReason.map fun reason =>
        ⟨finishReasonFor (some reason), parsed.usage.map usageFor⟩

def lastReport (payloads : List String) : Option GenerationSummary :=
  (payloads.filterMap (reportOf ext)).getLast?

/-- The reading ended at a payload that is neither the marker nor a response. -/
def stopsMalformed (payloads : List String) : Bool :=
  match payloads.find? (endsReading ext) with
  | some payload => !isDone payload
  | none => false

/-- The stream that a sequence of payloads stands for. -/
def saying (payloads : List String) : Delivery where
  deltas := (processed ext payloads).filterMap (textOf ext)
  ending :=
    if stopsMalformed ext payloads then .malformedEvent
    else endOfBody (lastReport ext (processed ext payloads))

end Payloads

/-- The payloads of frames that the decoder takes without an error. -/
inductive Decodes : SseDecoder → List (Option (List UInt8)) → List String → Prop
  | nil {d} : Decodes d [] []
  | skipped {d frames payloads} : Decodes d frames payloads → Decodes d (none :: frames) payloads
  | pushed {d d' chunk frames events payloads} : d.push chunk = (.ok events, d') →
      Decodes d' frames payloads → Decodes d (some chunk :: frames) (events ++ payloads)

variable {ext : Externals} {terminal : Option GenerationSummary}

theorem readPayload_eq (payload : String) :
    readPayload ext terminal payload =
      if isDone payload then .marked
      else
        match ext.decode payload with
        | .error err => .malformed (describe err payload)
        | .ok _ =>
          match firstChoice ext payload with
          | none => .skipped
          | some choice => .delta choice.text ((reportOf ext payload).or terminal) := by
  unfold readPayload firstChoice reportOf
  split
  · rfl
  · cases ext.decode payload with
    | error err => rfl
    | ok parsed =>
      rcases hc : parsed.choices with _ | ⟨choice, rest⟩
      · simp [Except.toOption, hc]
      · cases hr : choice.finishReason <;> simp [Except.toOption, hc, hr]

theorem reportOf_none {payload : String} (h : firstChoice ext payload = none) :
    reportOf ext payload = none := by
  unfold firstChoice at h
  unfold reportOf
  cases hd : (ext.decode payload).toOption with
  | none => rfl
  | some parsed =>
    simp only [hd, Option.bind_some] at h ⊢
    simp [h]

theorem textOf_none {payload : String} (h : firstChoice ext payload = none) :
    textOf ext payload = none := by
  rw [textOf, h]
  rfl

theorem textOf_some {payload : String} {choice : WireChoice}
    (h : firstChoice ext payload = some choice) :
    (textOf ext payload).toList = if choice.text.isEmpty then [] else [choice.text] := by
  rw [textOf, h]
  by_cases hempty : choice.text = ""
  · simp [hempty]
  · simp [hempty, String.isEmpty_iff]

theorem lastReport_cons (payload : String) (rest : List String) :
    lastReport ext (payload :: rest) = (lastReport ext rest).or (reportOf ext payload) := by
  unfold lastReport
  cases hreport : reportOf ext payload with
  | none => simp [hreport]
  | some report =>
    rw [List.filterMap_cons_some hreport, List.getLast?_cons]
    cases (rest.filterMap (reportOf ext)).getLast? <;> rfl

theorem filterMap_textOf_cons (payload : String) (rest : List String) :
    (payload :: rest).filterMap (textOf ext) =
      (textOf ext payload).toList ++ rest.filterMap (textOf ext) := by
  cases htext : textOf ext payload <;> simp [htext]

theorem processed_cons {payload : String} (h : endsReading ext payload = false)
    (rest : List String) : processed ext (payload :: rest) = payload :: processed ext rest := by
  simp [processed, h]

theorem stopsMalformed_cons {payload : String} (h : endsReading ext payload = false)
    (rest : List String) : stopsMalformed ext (payload :: rest) = stopsMalformed ext rest := by
  simp [stopsMalformed, h]

theorem handleAll_eq (payloads : List String) :
    handleAll ext terminal payloads =
      ((processed ext payloads).filterMap (textOf ext),
        if stopsMalformed ext payloads then .error .malformedEvent
        else if payloads.any (endsReading ext) then
          .error (endOfBody ((lastReport ext (processed ext payloads)).or terminal))
        else .ok ((lastReport ext (processed ext payloads)).or terminal)) := by
  induction payloads generalizing terminal with
  | nil => simp [handleAll, processed, lastReport, stopsMalformed]
  | cons payload rest ih =>
    rw [handleAll, readPayload_eq]
    by_cases hdone : isDone payload = true
    · simp [hdone, processed, endsReading, stopsMalformed, lastReport]
    · cases hdecode : ext.decode payload with
      | error err =>
        simp [hdone, processed, endsReading, stopsMalformed, hdecode, Except.toOption]
      | ok parsed =>
        have hends : endsReading ext payload = false := by
          simp [endsReading, hdone, hdecode, Except.toOption]
        rw [processed_cons hends, stopsMalformed_cons hends, filterMap_textOf_cons, lastReport_cons,
          List.any_cons, hends, Bool.false_or, if_neg hdone]
        cases hchoice : firstChoice ext payload with
        | none =>
          simp only [ih]
          rw [textOf_none hchoice, reportOf_none hchoice, Option.or_none]
          rfl
        | some choice =>
          simp only [ih]
          rw [textOf_some hchoice, Option.or_assoc]

theorem afterPayloads_ended {payloads : List String} {next next' : Option GenerationSummary → Delivery}
    (h : payloads.any (endsReading ext) = true) :
    afterPayloads (handleAll ext terminal payloads) next =
      afterPayloads (handleAll ext terminal payloads) next' := by
  refine afterPayloads_congr fun terminal' hok => ?_
  rw [handleAll_eq] at hok
  rw [if_pos h] at hok
  dsimp only at hok
  split at hok <;> cases hok

/-- Nothing after a payload that ends the reading is looked at. -/
theorem outcome_decodes {d : SseDecoder} {frames rest : List (Option (List UInt8))}
    {payloads : List String} (h : Decodes d frames payloads)
    (hrest : rest = [] ∨ payloads.any (endsReading ext) = true) :
    outcome ext d terminal (frames ++ rest) =
      afterPayloads (handleAll ext terminal payloads) fun terminal => ⟨[], endOfBody terminal⟩ := by
  induction h generalizing terminal with
  | nil =>
    obtain rfl : rest = [] := hrest.resolve_right (by simp)
    rfl
  | skipped _ ih => exact ih hrest
  | @pushed d d' chunk frames events payloads hpush _ ih =>
    rw [List.cons_append, outcome, hpush, afterPayloads_append]
    by_cases hends : events.any (endsReading ext) = true
    · exact afterPayloads_ended hends
    · have hlater : rest = [] ∨ payloads.any (endsReading ext) = true := by
        rw [List.any_append, Bool.or_eq_true] at hrest
        exact hrest.imp_right fun hany => hany.resolve_left hends
      refine afterPayloads_congr fun terminal' _ => ?_
      exact ih hlater

theorem saying_eq (payloads : List String) :
    afterPayloads (handleAll ext none payloads) (fun terminal => ⟨[], endOfBody terminal⟩) =
      saying ext payloads := by
  rw [handleAll_eq, Option.or_none, saying]
  by_cases hmalformed : stopsMalformed ext payloads = true
  · rw [if_pos hmalformed, if_pos hmalformed]
    rfl
  · rw [if_neg hmalformed, if_neg hmalformed]
    by_cases hends : payloads.any (endsReading ext) = true
    · rw [if_pos hends]
      rfl
    · rw [if_neg hends]
      simp [afterPayloads, Delivery.prepend]

/-- What is delivered is what the payloads say, whatever batches they came in and whatever
follows the one that ends the reading. -/
theorem reads_saying {frames rest : List (Option (List UInt8))} {payloads : List String}
    {d : Delivery} (h : Decodes .default frames payloads)
    (hrest : rest = [] ∨ ∃ payload ∈ payloads, endsReading ext payload = true) :
    Reads ext (frames ++ rest) d ↔ d = saying ext payloads := by
  rw [← List.any_eq_true] at hrest
  rw [reads_iff, outcome_decodes h hrest, saying_eq]

/-- One event that is a response, after a frame without data. -/
theorem reads_saying_sampleFrame :
    saying sampleExternals [samplePayload] = ⟨["x"], .unexpectedEnd⟩ ∧
      Reads sampleExternals [none, some sampleFrame] (saying sampleExternals [samplePayload]) := by
  have hdecodes : Decodes .default [none, some sampleFrame] [samplePayload] :=
    .skipped (.pushed push_sampleFrame .nil)
  refine ⟨by decide, ?_⟩
  have hreads : Reads sampleExternals ([none, some sampleFrame] ++ []) _ :=
    (reads_saying hdecodes (.inl rfl)).mpr rfl
  exact hreads

end MehoyRuntime.Stream
