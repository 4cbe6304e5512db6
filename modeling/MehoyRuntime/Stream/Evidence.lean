import MehoyRuntime.Stream.Exchange

/-!
# Streamed evidence and the evidence of a whole response

A stream counts what it hands out, and `validate_generation` looks at a result. Both are
functions of what the consumer obtained, which is where the two standards can be compared.
-/

namespace MehoyRuntime.Stream
open MehoyRuntime.Core TransitionSystem

def summaryOf : StreamItem → Option GenerationSummary
  | .ok (.completed _ summary) => some summary
  | _ => none

/-- What a consumer that read a stream to its completion has: the deltas, joined, and what
the terminal event reported. -/
def streamedResult (items : List StreamItem) : Option GenerationResult :=
  (items.findSome? summaryOf).map fun summary =>
    ⟨String.join (items.filterMap deltaText), summary.finishReason, summary.usage⟩

/-- `verify_text_generation` would have accepted the streamed result. -/
def Verifiable (items : List StreamItem) : Prop :=
  ∃ result, streamedResult items = some result ∧ validateGeneration result = .ok ()

/-- Text was streamed, and the completion reports that no tokens were produced. -/
def DeniesOutput (items : List StreamItem) : Prop :=
  items.filterMap deltaText ≠ [] ∧ ∃ summary usage, items.findSome? summaryOf = some summary ∧
    summary.usage = some usage ∧ usage.outputTokens = 0

theorem validateGeneration_iff (result : GenerationResult) :
    validateGeneration result = .ok () ↔
      result.text ≠ "" ∧ ∀ usage ∈ result.usage, usage.outputTokens ≠ 0 := by
  unfold validateGeneration
  by_cases htext : result.text = ""
  · simp [htext]
  · cases husage : result.usage with
    | none => simp [htext]
    | some usage => by_cases hzero : usage.outputTokens = 0 <;> simp [htext, hzero]

theorem verifiable_iff {items : List StreamItem} (htexts : "" ∉ items.filterMap deltaText) :
    Verifiable items ↔ ∃ summary, items.findSome? summaryOf = some summary ∧
      items.filterMap deltaText ≠ [] ∧ ∀ usage ∈ summary.usage, usage.outputTokens ≠ 0 := by
  have hjoin : String.join (items.filterMap deltaText) ≠ "" ↔ items.filterMap deltaText ≠ [] := by
    cases htext : items.filterMap deltaText with
    | nil => simp
    | cons text texts =>
      have hne : text ≠ "" := by
        rintro rfl
        simp [htext] at htexts
      simp [hne]
  unfold Verifiable streamedResult
  cases hsummary : items.findSome? summaryOf with
  | none => simp
  | some summary => simp [validateGeneration_iff, hjoin]

/-! ### The counts of a stream -/

/-- The stream has counted what it delivered, and nothing else. -/
def Counted (c : Channel) : Prop :=
  c.stream = c.delivered.foldl GenerationStream.observe ⟨0, false, none, false⟩

theorem observe_deltas (items : List StreamItem) (stream : GenerationStream) :
    (items.foldl GenerationStream.observe stream).deltas =
      stream.deltas + (items.filterMap deltaText).length := by
  induction items generalizing stream with
  | nil => rfl
  | cons item items ih =>
    rw [List.foldl_cons, ih]
    rcases item with error | event
    · simp [GenerationStream.observe, deltaText, List.filterMap_cons]
    · cases event with
      | textDelta id text =>
        simp only [GenerationStream.observe, deltaText, List.filterMap_cons, List.length_cons]
        omega
      | _ => simp [GenerationStream.observe, deltaText, List.filterMap_cons]

theorem observe_completed (items : List StreamItem) (stream : GenerationStream) :
    (items.foldl GenerationStream.observe stream).completed = true ↔
      stream.completed = true ∨ ∃ summary, items.findSome? summaryOf = some summary := by
  induction items generalizing stream with
  | nil => simp
  | cons item items ih =>
    rw [List.foldl_cons, ih]
    rcases item with error | event
    · simp [GenerationStream.observe, summaryOf, List.findSome?_cons]
    · cases event <;> simp [GenerationStream.observe, summaryOf, List.findSome?_cons]

theorem Counted.demonstrated_iff {c : Channel} (h : Counted c) :
    c.stream.demonstratedGeneration = true ↔
      ∃ summary, c.delivered.findSome? summaryOf = some summary ∧
        c.delivered.filterMap deltaText ≠ [] := by
  have hdeltas : 0 < c.stream.deltas ↔ c.delivered.filterMap deltaText ≠ [] := by
    rw [h, observe_deltas, Nat.zero_add, List.length_pos_iff]
  have hcompleted : c.stream.completed = true ↔
      ∃ summary, c.delivered.findSome? summaryOf = some summary := by
    rw [h, observe_completed]
    simp
  simp only [GenerationStream.demonstratedGeneration, Bool.and_eq_true, decide_eq_true_eq]
  rw [hdeltas, hcompleted, exists_and_right]

theorem Counted.next {c c' : Channel} {out : Option StreamItem} (h : Counted c)
    (hnext : c.next = some (out, c')) : Counted c' := by
  unfold Counted at h ⊢
  rcases Channel.next_cases hnext with ⟨-, -, rfl⟩ | ⟨-, item, rest, -, -, rfl⟩ | ⟨-, -, -, -, rfl⟩
  · exact h
  · simp only [List.foldl_append, List.foldl_cons, List.foldl_nil, ← h]
  · simp only [List.foldl_append, List.foldl_cons, List.foldl_nil, ← h]
    rfl

namespace Exchange
variable {s s' : State}

/-- Only an answer of `next` changes what the stream has counted or delivered. -/
theorem step_counts {a : Label} (hst : step s a = some s') :
    (∃ out, s.chan.next = some (out, s'.chan)) ∨
    (s'.chan.stream = s.chan.stream ∧ s'.chan.delivered = s.chan.delivered) := by
  have hfinish : ∀ {handle item}, s.finishSink handle item = some s' →
      s'.chan.stream = s.chan.stream ∧ s'.chan.delivered = s.chan.delivered := by
    intro handle item h
    unfold State.finishSink at h
    split at h
    · split at h <;> cases h <;> exact ⟨rfl, rfl⟩
    · cases h
  cases a with
  | poll =>
    obtain ⟨out, hnext, -⟩ := poll_cases hst
    exact .inl ⟨out, hnext⟩
  | complete summary => exact .inr (hfinish hst)
  | cancel cause => exact .inr (hfinish hst)
  | fail error => exact .inr (hfinish hst)
  | send =>
    have hsend : s.send = some s' := hst
    unfold State.send at hsend
    split at hsend
    · split at hsend
      · cases hsend
      · rename_i taken chan hchan
        cases hsend
        rcases Channel.send_cases hchan with ⟨-, -, rfl⟩ | ⟨-, -, -, rfl⟩ <;> exact .inr ⟨rfl, rfl⟩
    · split at hsend
      · cases hsend
      · rename_i taken chan hchan
        cases hsend
        rcases Channel.send_cases hchan with ⟨-, -, rfl⟩ | ⟨-, -, -, rfl⟩ <;> exact .inr ⟨rfl, rfl⟩
    · cases hsend
  | handle call =>
    cases hst
    exact .inr ⟨rfl, rfl⟩
  | delta | dropDelta | dropSink | callNext | callCollect | dropReading | dropStream =>
    simp only [step] at hst
    split at hst <;> cases hst <;> exact .inr ⟨rfl, rfl⟩

theorem reachable_counted (hs : Reachable system s) : Counted s.chan := by
  induction hs with
  | init hi =>
    obtain ⟨handle, rfl⟩ := hi
    rfl
  | step _ _ hst ih =>
    rcases step_counts hst with ⟨out, hnext⟩ | ⟨hstream, hdelivered⟩
    · exact ih.next hnext
    · rw [Counted, hstream, hdelivered]
      exact ih

/-- The items `next` has handed out. -/
def State.read (s : State) : List StreamItem := s.obtained.filterMap id

theorem Inv.read_eq {id : RequestId} {ended : Option StreamItem} {lost : List StreamItem}
    (h : Inv id s ended lost) : s.read = s.chan.delivered := by
  obtain ⟨k, hobtained, -⟩ := h.obtained
  simp [State.read, hobtained]

theorem Inv.read_texts {id : RequestId} {ended : Option StreamItem} {lost : List StreamItem}
    (h : Inv id s ended lost) : "" ∉ s.read.filterMap deltaText := by
  intro hmem
  have hsent : "" ∈ (script id s.accepted ended).filterMap deltaText := by
    rw [← h.chan.sent, Channel.items, List.append_assoc, List.filterMap_append, ← h.read_eq]
    exact List.mem_append_left _ hmem
  rw [script_texts _ h.chan.ends] at hsent
  exact h.texts hsent

/-- At its end, as before it, a stream is held to the standard of a whole response exactly
where it does not report zero output tokens after text that it delivered. -/
theorem demonstrated_agrees_iff (hs : Reachable system s) :
    (s.chan.stream.demonstratedGeneration = true ↔ Verifiable s.read) ↔
      ¬ DeniesOutput s.read := by
  obtain ⟨id, ended, lost, h⟩ := reachable_inv hs
  rw [(reachable_counted hs).demonstrated_iff, ← h.read_eq, verifiable_iff h.read_texts]
  constructor
  · rintro hagree ⟨htexts, summary, usage, hsummary, husage, hzero⟩
    obtain ⟨other, hother, -, hpositive⟩ := hagree.mp ⟨summary, hsummary, htexts⟩
    obtain rfl : summary = other := Option.some.inj (hsummary.symm.trans hother)
    exact hpositive usage husage hzero
  · intro hreports
    constructor
    · rintro ⟨summary, hsummary, htexts⟩
      refine ⟨summary, hsummary, htexts, fun usage husage hzero => hreports ?_⟩
      exact ⟨htexts, summary, usage, hsummary, husage, hzero⟩
    · rintro ⟨summary, hsummary, htexts, -⟩
      exact ⟨summary, hsummary, htexts⟩

/-- One delta and a completion with this usage, read with `next` to the end. -/
def reportingRun (usage : GenerationUsage) : List Label :=
  [.delta "a", .send, .callNext, .poll, .callNext, .poll, .complete ⟨.stop, some usage⟩, .send,
    .callNext, .poll, .callNext, .poll]

theorem reportingRun_read (usage : GenerationUsage) :
    ∃ s, system.run (.start (.new ⟨1⟩)) (reportingRun usage) = some s ∧
      s.chan.stream.finished = true ∧ s.chan.stream.demonstratedGeneration = true ∧
      s.read = script ⟨1⟩ ["a"] (some (.ok (.completed ⟨1⟩ ⟨.stop, some usage⟩))) :=
  ⟨_, rfl, rfl, rfl, rfl⟩

theorem demonstrated_agrees_reporting :
    ∃ s, system.run (.start (.new ⟨1⟩)) (reportingRun ⟨5, 1⟩) = some s ∧
      (s.chan.stream.demonstratedGeneration = true ↔ Verifiable s.read) := by
  obtain ⟨s, hrun, -, -, hread⟩ := reportingRun_read ⟨5, 1⟩
  have hs : Reachable system s := reachable_of_run (.init ⟨_, rfl⟩) hrun
  refine ⟨s, hrun, (demonstrated_agrees_iff hs).mpr ?_⟩
  rintro ⟨-, summary, usage, hsummary, husage, hzero⟩
  rw [hread] at hsummary
  cases hsummary
  cases husage
  cases hzero

/-- The completion contradicts the delta before it, and the stream still counts. -/
theorem denied_output_demonstrates : ¬ ∀ s, Reachable system s → s.chan.stream.finished = true →
    (s.chan.stream.demonstratedGeneration = true ↔ Verifiable s.read) := by
  intro hall
  obtain ⟨s, hrun, hend, hdemonstrated, hread⟩ := reportingRun_read ⟨5, 0⟩
  have hs : Reachable system s := reachable_of_run (.init ⟨_, rfl⟩) hrun
  obtain ⟨result, hresult, hvalid⟩ := (hall s hs hend).mp hdemonstrated
  rw [hread] at hresult
  cases hresult
  cases hvalid

end Exchange
end MehoyRuntime.Stream
