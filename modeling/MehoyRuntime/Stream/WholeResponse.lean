import MehoyRuntime.Stream.Collect
import MehoyRuntime.Stream.Truncation

/-!
# The streamed and the whole response

`generate` reads one JSON body; the streaming path reads the same JSON as one event before the
end-of-stream marker. Both decode the same wire shape, each in its own way.
-/

namespace MehoyRuntime.Stream
open MehoyRuntime.Core TransitionSystem
open Utf8 (bytesOf bytesOf_injective textOf_bytesOf)
open SseDecoder (newline carriageReturn)

/-- How long one request may take, in seconds. -/
def requestBudget : ℕ := 300

/-- What comes of `post` within its budget. -/
inductive Posted
  | elapsed
  | failed (error : GenerateError)
  | answered (status : ℕ) (bytes : List UInt8)

/-- `generate`, given the encoded request, what comes of sending it, and the JSON decoder of
whole bodies. -/
def generate (ext : Externals) (fromSlice : List UInt8 → Except String WireResponse)
    (body : Except String (List UInt8)) (posted : Posted) : Except GenerateError GenerationResult :=
  match body with
  | .error err => .error (.malformedResponse s!"cannot encode the request: {err}")
  | .ok _ =>
    match posted with
    | .elapsed => .error (.transport s!"no response within {requestBudget}s")
    | .failed error => .error error
    | .answered status bytes =>
      if !isSuccess status then .error (classify ext status bytes)
      else
        match fromSlice bytes with
        | .error err => .error (.malformedResponse err)
        | .ok wire =>
          match wire.choices with
          | [] => .error (.malformedResponse "the response contained no choices")
          | choice :: _ =>
            .ok ⟨choice.text, finishReasonFor choice.finishReason, wire.usage.map usageFor⟩

/-- The two decoders read one grammar, and the marker is not in it. -/
structure Grammatical (ext : Externals) (fromSlice : List UInt8 → Except String WireResponse) :
    Prop where
  same : ∀ text, fromSlice (bytesOf text) = ext.decode text
  marker : ∀ text, isDone text = true → (ext.decode text).toOption = none

def SingleLine (text : String) : Prop := newline ∉ bytesOf text ∧ carriageReturn ∉ bytesOf text

/-- The frames are those of a response that has the text as one event, and the marker as
another. -/
def Streams (frames : List (Option (List UInt8))) (text : String) : Prop :=
  reference (bodyOf frames) = ⟨[bytesOf text, bytesOf doneMarker], false⟩

namespace SseDecoder

/-- No push of the chunks finds too much pending. -/
def Bounded (d : SseDecoder) : List (List UInt8) → Prop
  | [] => True
  | chunk :: chunks => d.buffer.length + chunk.length ≤ maxPendingBytes ∧
      d.data.utf8ByteSize ≤ maxPendingBytes ∧ (d.push chunk).2.Bounded chunks

end SseDecoder

variable {ext : Externals} {fromSlice : List UInt8 → Except String WireResponse}

/-! ### The events of the response -/

theorem fromUtf8_bytesOf (text : String) : fromUtf8 (bytesOf text) = .ok text := by
  have htext : String.fromUTF8? ⟨(bytesOf text).toArray⟩ = some text := textOf_bytesOf text
  rw [fromUtf8, htext]

/-- Lines whose data are text are fed without an error. -/
theorem feed_total {lines : List (List UInt8)} (d : SseDecoder)
    (h : ∀ line ∈ lines, ∀ value, dataValue line = some value →
      ∃ text, fromUtf8 value = .ok text) : ∃ events d', d.feed lines = (events, .ok d') := by
  induction lines generalizing d with
  | nil => exact ⟨[], d, rfl⟩
  | cons line lines ih =>
    obtain ⟨event, after, hline⟩ : ∃ event after, d.consume line = (.ok event, after) := by
      cases hempty : line.isEmpty with
      | true =>
        rw [List.isEmpty_iff.mp hempty, consume_nil]
        split
        · exact ⟨_, _, rfl⟩
        · exact ⟨_, _, rfl⟩
      | false =>
        rw [consume_field d hempty]
        cases hvalue : dataValue line with
        | none => exact ⟨_, _, rfl⟩
        | some value =>
          obtain ⟨text, htext⟩ := h line List.mem_cons_self value hvalue
          simp only [htext]
          exact ⟨_, _, rfl⟩
    obtain ⟨events, d', hrest⟩ := ih after fun other hother => h other (List.mem_cons_of_mem _ hother)
    rw [SseDecoder.feed_cons hline, hrest]
    exact ⟨_, _, rfl⟩

/-- Every data value is part of an event, or is held in the end. -/
theorem mem_dispatch {lines held : List (List UInt8)} {value : List UInt8}
    (h : value ∈ held ∨ ∃ line ∈ lines, dataValue line = some value) :
    value ∈ (dispatch held lines).2 ∨
      ∃ values, value ∈ values ∧ joinLines values ∈ (dispatch held lines).1 := by
  induction lines generalizing held with
  | nil =>
    rcases h with hheld | ⟨line, hmem, -⟩
    · exact .inl hheld
    · cases hmem
  | cons line lines ih =>
    cases hline : line.isEmpty with
    | true =>
      have hlater : (∃ other ∈ line :: lines, dataValue other = some value) →
          ∃ other ∈ lines, dataValue other = some value := by
        rintro ⟨other, hmem, hvalue⟩
        rcases List.mem_cons.mp hmem with rfl | hmem
        · rw [List.isEmpty_iff.mp hline] at hvalue
          cases hvalue
        · exact ⟨other, hmem, hvalue⟩
      cases hheld : held.isEmpty with
      | true =>
        rw [dispatch, if_pos hline, if_pos hheld]
        rw [List.isEmpty_iff.mp hheld] at h
        exact ih (h.imp_right hlater)
      | false =>
        rw [dispatch, if_pos hline, if_neg (by simp [hheld])]
        rcases h with hmem | hmem
        · exact .inr ⟨held, hmem, List.mem_cons_self⟩
        · refine (ih (.inr (hlater hmem))).imp_right ?_
          rintro ⟨values, hvalue, hjoined⟩
          exact ⟨values, hvalue, List.mem_cons_of_mem _ hjoined⟩
    | false =>
      rw [dispatch, if_neg (by simp [hline])]
      refine ih ?_
      rcases h with hmem | ⟨other, hmem, hvalue⟩
      · exact .inl (List.mem_append_left _ hmem)
      · rcases List.mem_cons.mp hmem with rfl | hmem
        · rw [hvalue]
          exact .inl (List.mem_append_right _ (List.mem_singleton_self _))
        · exact .inr ⟨other, hmem, hvalue⟩

/-- One value, where the event has no line ending. -/
theorem joinLines_single {values : List (List UInt8)} {value : List UInt8}
    (h : newline ∉ joinLines values) (hmem : value ∈ values) : joinLines values = value := by
  match values with
  | [] => cases hmem
  | [only] => exact (List.mem_singleton.mp hmem).symm
  | first :: second :: rest => simp [joinLines] at h

/-- The lines of such a response, fed one by one. -/
theorem Streams.fed {frames : List (Option (List UInt8))} {text : String}
    (h : Streams frames text) (hline : SingleLine text) :
    ∃ d, SseDecoder.default.feed (splitLines (bodyOf frames)).1 = ([text, doneMarker], .ok d) := by
  have hmarked : newline ∉ bytesOf doneMarker := by decide
  simp only [Streams, reference, Parsed.mk.injEq, Bool.or_eq_false_iff, Bool.not_eq_false',
    List.isEmpty_iff] at h
  obtain ⟨hevents, -, hheld⟩ := h
  have hvalues : ∀ line ∈ (splitLines (bodyOf frames)).1, ∀ value, dataValue line = some value →
      ∃ decoded, fromUtf8 value = .ok decoded := by
    intro line hmem value hvalue
    have hused := mem_dispatch (.inr ⟨line, hmem, hvalue⟩ : value ∈ [] ∨ _)
    rw [hheld, hevents] at hused
    rcases hused with hleft | ⟨values, hin, hjoined⟩
    · cases hleft
    · rcases List.mem_pair.mp hjoined with hjoined | hjoined
      · have hsingle := joinLines_single (by rw [hjoined]; exact hline.1) hin
        exact ⟨text, by rw [← hsingle, hjoined, fromUtf8_bytesOf]⟩
      · have hsingle := joinLines_single (by rw [hjoined]; exact hmarked) hin
        exact ⟨doneMarker, by rw [← hsingle, hjoined, fromUtf8_bytesOf]⟩
  obtain ⟨events, d, hfeed⟩ := feed_total .default hvalues
  obtain ⟨hdispatch, -⟩ := feed_dispatch holds_default hfeed
  have hsame : events.map bytesOf = [text, doneMarker].map bytesOf := hdispatch.symm.trans hevents
  rw [List.map_injective_iff.mpr bytesOf_injective hsame] at hfeed
  exact ⟨d, hfeed⟩

/-- Where no push finds too much pending, chunks of lines without an error are all taken. -/
theorem SseDecoder.Took.pushed {chunks : List (List UInt8)} {bytes : List UInt8}
    {events all : List String} {d fed : SseDecoder} (h : SseDecoder.Took bytes events d)
    (hbounded : d.Bounded chunks)
    (hfeed : SseDecoder.default.feed (splitLines (bytes ++ chunks.flatten)).1 = (all, .ok fed)) :
    ∃ more d', d.pushAll chunks = (.ok more, d') := by
  induction chunks generalizing bytes events d with
  | nil => exact ⟨[], d, rfl⟩
  | cons chunk chunks ih =>
    obtain ⟨hbuffer, hdata, hrest⟩ := hbounded
    have hpush := SseDecoder.push_eq hbuffer hdata
    obtain ⟨hchunk, -⟩ := h.feed chunk
    rw [List.flatten_cons, ← List.append_assoc] at hfeed
    rcases hfound : d.feed (splitLines (d.buffer ++ chunk)).1 with ⟨found, detail | fed'⟩
    · -- A malformed line in the chunk is one of the whole.
      rw [hfound] at hchunk
      rw [splitLines_append, SseDecoder.feed_append_error hchunk] at hfeed
      cases hfeed
    · rw [hfound] at hpush
      dsimp only at hpush
      rw [hpush] at hrest
      obtain ⟨more, d', hmore⟩ := ih (h.push hpush) hrest hfeed
      refine ⟨found ++ more, d', ?_⟩
      rw [SseDecoder.pushAll, hpush]
      simp only [hmore]

theorem Streams.decodes {frames : List (Option (List UInt8))} {text : String}
    (h : Streams frames text) (hline : SingleLine text)
    (hbounded : SseDecoder.default.Bounded (frames.filterMap id)) :
    Decodes .default frames [text, doneMarker] := by
  obtain ⟨fed, hfeed⟩ := h.fed hline
  obtain ⟨events, d, hpush⟩ := SseDecoder.took_nil.pushed hbounded hfeed
  obtain ⟨htook, -⟩ := SseDecoder.took_nil.pushAll hpush
  have hevents : events = [text, doneMarker] := by
    have hsame := htook.symm.trans hfeed
    exact congrArg Prod.fst hsame
  rw [hevents] at hpush
  exact .of_pushAll hpush

/-! ### The two readings -/

theorem isDone_marker : isDone doneMarker = true := by decide

theorem saying_response {text : String} (h : endsReading ext text = false) :
    saying ext [text, doneMarker] = ⟨(textOf ext text).toList, endOfBody (reportOf ext text)⟩ := by
  have hmarker : endsReading ext doneMarker = true := by rw [endsReading, isDone_marker]; rfl
  have hprocessed : processed ext [text, doneMarker] = [text] := by
    simp [processed, h, hmarker]
  have hstops : stopsMalformed ext [text, doneMarker] = false := by
    simp [stopsMalformed, h, hmarker, isDone_marker]
  have hdeltas : [text].filterMap (textOf ext) = (textOf ext text).toList := by
    cases hfirst : textOf ext text <;> simp [hfirst]
  have hlast : lastReport ext [text] = reportOf ext text := by
    cases hreport : reportOf ext text <;> simp [lastReport, hreport]
  rw [saying, hprocessed, hstops, hdeltas, hlast]
  rfl

theorem saying_ended {text : String} (h : endsReading ext text = true)
    (summary : GenerationSummary) : (saying ext [text, doneMarker]).ending ≠ .completed summary := by
  have hprocessed : processed ext [text, doneMarker] = [] := by simp [processed, h]
  rw [saying, hprocessed]
  cases stopsMalformed ext [text, doneMarker] <;> simp [lastReport, endOfBody]

theorem join_textOf {text : String} {choice : WireChoice}
    (h : firstChoice ext text = some choice) : String.join (textOf ext text).toList = choice.text := by
  rw [textOf_some h]
  by_cases hempty : choice.text = ""
  · simp [hempty]
  · simp [hempty, String.isEmpty_iff]

/-- What the two events say, where they say that the generation completed. -/
theorem saying_gives_iff {text : String} {result : GenerationResult}
    (hmarker : isDone text = true → (ext.decode text).toOption = none) :
    (saying ext [text, doneMarker]).Gives (.ok (.completed result)) ↔
      ∃ wire choice rest, ext.decode text = .ok wire ∧ wire.choices = choice :: rest ∧
        choice.finishReason.isSome ∧
        result = ⟨choice.text, finishReasonFor choice.finishReason, wire.usage.map usageFor⟩ := by
  cases hdecode : ext.decode text with
  | error err =>
    have hends : endsReading ext text = true := by simp [endsReading, hdecode, Except.toOption]
    constructor
    · rintro ⟨summary, hending, -⟩
      exact absurd hending (saying_ended hends summary)
    · rintro ⟨wire, choice, rest, hwire, -⟩
      cases hwire
  | ok wire =>
    have hends : endsReading ext text = false := by
      have hunmarked : isDone text = false := by
        rw [Bool.eq_false_iff]
        intro hdone
        have hnone := hmarker hdone
        rw [hdecode] at hnone
        cases hnone
      simp [endsReading, hunmarked, hdecode, Except.toOption]
    rw [saying_response hends]
    have hreport : reportOf ext text = wire.choices.head?.bind fun choice =>
        choice.finishReason.map fun reason =>
          ⟨finishReasonFor (some reason), wire.usage.map usageFor⟩ := by
      rw [reportOf, hdecode]
      rfl
    constructor
    · rintro ⟨summary, hending, rfl⟩
      cases hchoices : wire.choices with
      | nil =>
        rw [hreport, hchoices] at hending
        cases hending
      | cons choice rest =>
        have hfirst : firstChoice ext text = some choice := by
          simp [firstChoice, hdecode, Except.toOption, hchoices]
        rw [hreport, hchoices] at hending
        cases hreason : choice.finishReason with
        | none => simp [hreason, endOfBody] at hending
        | some reason =>
          simp only [List.head?_cons, Option.bind_some, hreason, Option.map_some, endOfBody,
            Ending.completed.injEq] at hending
          refine ⟨wire, choice, rest, rfl, hchoices, by rw [hreason]; rfl, ?_⟩
          rw [join_textOf hfirst, ← hending, hreason]
    · rintro ⟨_, choice, rest, ⟨⟩, hchoices, hreported, rfl⟩
      have hfirst : firstChoice ext text = some choice := by
        simp [firstChoice, hdecode, Except.toOption, hchoices]
      obtain ⟨reason, hreason⟩ := Option.isSome_iff_exists.mp hreported
      refine ⟨⟨finishReasonFor (some reason), wire.usage.map usageFor⟩, ?_, ?_⟩
      · rw [hreport, hchoices]
        simp [hreason, endOfBody]
      · rw [join_textOf hfirst, hreason]

/-- What `generate` returns for a body that it is given with a success status. -/
theorem generate_ok_iff (hgrammar : Grammatical ext fromSlice) {text : String} {status : ℕ}
    (hstatus : isSuccess status = true) (request : List UInt8) {result : GenerationResult} :
    generate ext fromSlice (.ok request) (.answered status (bytesOf text)) = .ok result ↔
      ∃ wire choice rest, ext.decode text = .ok wire ∧ wire.choices = choice :: rest ∧
        result = ⟨choice.text, finishReasonFor choice.finishReason, wire.usage.map usageFor⟩ := by
  simp only [generate, hstatus, Bool.not_true, Bool.false_eq_true, if_false, hgrammar.same]
  cases ext.decode text with
  | error err => simp
  | ok wire =>
    cases hchoices : wire.choices with
    | nil => simp [hchoices]
    | cons choice rest =>
      simp only [hchoices, Except.ok.injEq]
      constructor
      · rintro rfl
        exact ⟨wire, choice, rest, rfl, hchoices, rfl⟩
      · rintro ⟨_, _, _, rfl, hchoices', rfl⟩
        rw [hchoices] at hchoices'
        cases hchoices'
        rfl

theorem reportOf_isSome {text : String} {wire : WireResponse} {choice : WireChoice}
    {rest : List WireChoice} (hdecode : ext.decode text = .ok wire)
    (hchoices : wire.choices = choice :: rest) :
    (reportOf ext text).isSome = choice.finishReason.isSome := by
  simp [reportOf, hdecode, Except.toOption, hchoices]

/-- The completion of the streamed response: that of its one event. -/
theorem outcome_gives_iff (hgrammar : Grammatical ext fromSlice) {text : String}
    (hline : SingleLine text) {frames : List (Option (List UInt8))} (hstreams : Streams frames text)
    (hbounded : SseDecoder.default.Bounded (frames.filterMap id)) {result : GenerationResult} :
    (outcome ext .default none frames).Gives (.ok (.completed result)) ↔
      ∃ wire choice rest, ext.decode text = .ok wire ∧ wire.choices = choice :: rest ∧
        choice.finishReason.isSome ∧
        result = ⟨choice.text, finishReasonFor choice.finishReason, wire.usage.map usageFor⟩ := by
  have houtcome : outcome ext .default none (frames ++ []) = _ :=
    outcome_decodes (hstreams.decodes hline hbounded) (.inl rfl)
  rw [List.append_nil, saying_eq] at houtcome
  rw [houtcome]
  exact saying_gives_iff (hgrammar.marker text)

/-- A response that `generate` accepts is collected with the same result exactly where it reports
why the generation finished; and `generate` accepts whatever is collected. -/
theorem collect_agrees (hgrammar : Grammatical ext fromSlice) {text : String}
    (hline : SingleLine text) {frames : List (Option (List UInt8))} (hstreams : Streams frames text)
    (hbounded : SseDecoder.default.Bounded (frames.filterMap id)) {status : ℕ}
    (hstatus : isSuccess status = true) (request : List UInt8) (result : GenerationResult) :
    (generate ext fromSlice (.ok request) (.answered status (bytesOf text)) = .ok result →
      (Collects ext frames (.ok (.completed result)) ↔ (reportOf ext text).isSome)) ∧
    ((∃ actions t, Receives ext frames actions t ∧
        t.collecting = .returned (.ok (.completed result))) →
      generate ext fromSlice (.ok request) (.answered status (bytesOf text)) = .ok result) := by
  rw [collects_completed_iff, collected_iff, generate_ok_iff hgrammar hstatus,
    outcome_gives_iff hgrammar hline hstreams hbounded]
  constructor
  · rintro ⟨wire, choice, rest, hdecode, hchoices, rfl⟩
    rw [reportOf_isSome hdecode hchoices]
    constructor
    · rintro ⟨wire', choice', rest', hdecode', hchoices', hreported, -⟩
      rw [hdecode] at hdecode'
      cases hdecode'
      rw [hchoices] at hchoices'
      cases hchoices'
      exact hreported
    · intro hreported
      exact ⟨wire, choice, rest, hdecode, hchoices, hreported, rfl⟩
  · rintro ⟨wire, choice, rest, hdecode, hchoices, -, hresult⟩
    exact ⟨wire, choice, rest, hdecode, hchoices, hresult⟩

/-! ### The response as it is sent -/

/-- One data event with the text, and the marker. -/
def streamed (text : String) : List UInt8 := bytesOf ("data: " ++ text ++ "\n\ndata: [DONE]\n\n")

theorem splitLines_line {line : List UInt8} (hn : newline ∉ line) (hr : carriageReturn ∉ line)
    (rest : List UInt8) :
    splitLines (line ++ newline :: rest) = (line :: (splitLines rest).1, (splitLines rest).2) := by
  induction line with
  | nil => exact splitLines_newline rest
  | cons b line ih =>
    rw [List.mem_cons, not_or] at hn hr
    rw [List.cons_append, splitLines_other (Ne.symm hn.1) (Ne.symm hr.1), ih hn.2 hr.2]
    rfl

theorem dataValue_data (value : List UInt8) : dataValue (bytesOf "data: " ++ value) = some value := by
  have hbytes : bytesOf "data: " = [0x64, 0x61, 0x74, 0x61, 0x3a, 0x20] := rfl
  rw [hbytes]
  rfl

theorem streams_streamed {text : String} (hline : SingleLine text)
    {frames : List (Option (List UInt8))} (hframes : bodyOf frames = streamed text) :
    Streams frames text := by
  have hend : bytesOf "\n\ndata: [DONE]\n\n" =
      newline :: newline :: (bytesOf "data: [DONE]" ++ [newline, newline]) := rfl
  have hbytes : streamed text = (bytesOf "data: " ++ bytesOf text) ++ newline :: newline ::
      (bytesOf "data: [DONE]" ++ [newline, newline]) := by
    rw [streamed, Utf8.bytesOf_append, Utf8.bytesOf_append, hend]
  have hdata : newline ∉ bytesOf "data: " ∧ carriageReturn ∉ bytesOf "data: " := by decide
  have hmarked : splitLines (bytesOf "data: [DONE]" ++ [newline, newline]) =
      ([bytesOf "data: [DONE]", []], []) := by decide
  have hsplit : splitLines (streamed text) =
      ([bytesOf "data: " ++ bytesOf text, [], bytesOf "data: [DONE]", []], []) := by
    rw [hbytes, splitLines_line, splitLines_newline, hmarked]
    · simp [hdata.1, hline.1]
    · simp [hdata.2, hline.2]
  have hmarker : dataValue (bytesOf "data: [DONE]") = some (bytesOf doneMarker) := by decide
  rw [Streams, hframes, reference, hsplit]
  simp only [dispatch, dataValue_data, hmarker]
  rfl

/-- A JSON object is not the marker. -/
theorem isDone_object {text : String} {rest : List Char} (h : text.toList = '\x7b' :: rest) :
    isDone text = false := by
  have hopen : isWhiteSpace '\x7b' = false := by decide
  obtain ⟨more, htrim⟩ : ∃ more, trim text = '\x7b' :: more := by
    rw [trim, h, List.dropWhile_cons, hopen]
    simp only [Bool.false_eq_true, if_false, List.reverse_cons, List.dropWhile_append]
    split
    · exact ⟨[], by simp [hopen]⟩
    · exact ⟨_, by rw [List.reverse_append]; rfl⟩
  rw [isDone, htrim, decide_eq_false_iff_not]
  intro hsame
  cases hsame

/-- A decoder that takes one text, and the decoder of whole bodies that belongs to it. -/
def decoding (text : String) (wire : WireResponse) : Externals where
  decode payload :=
    if payload = text then .ok wire else .error "expected value at line 1 column 1"
  decodeError _ := none

def slicing (ext : Externals) (bytes : List UInt8) : Except String WireResponse :=
  match Utf8.textOf bytes with
  | some text => ext.decode text
  | none => .error "invalid unicode code point at line 1 column 1"

theorem decoding_self (text : String) (wire : WireResponse) :
    (decoding text wire).decode text = .ok wire := if_pos rfl

theorem grammatical_decoding {text : String} {wire : WireResponse} (h : isDone text = false) :
    Grammatical (decoding text wire) (slicing (decoding text wire)) where
  same other := by rw [slicing, textOf_bytesOf]
  marker other hdone := by
    have hne : other ≠ text := by
      rintro rfl
      rw [h] at hdone
      cases hdone
    simp [decoding, hne, Except.toOption]

/-- The JSON of a whole response that the source's measurements describe. -/
def finishedPayload : String :=
  "\x7b\"choices\":[\x7b\"text\":\"x\",\"finish_reason\":\"stop\"\x7d]," ++
    "\"usage\":\x7b\"prompt_tokens\":5,\"completion_tokens\":1\x7d\x7d"

def finishedResponse : WireResponse := ⟨[⟨"x", some "stop"⟩], some ⟨5, 1⟩⟩

theorem collect_agrees_finished :
    generate (decoding finishedPayload finishedResponse)
        (slicing (decoding finishedPayload finishedResponse)) (.ok [])
        (.answered 200 (bytesOf finishedPayload)) = .ok ⟨"x", .stop, some ⟨5, 1⟩⟩ ∧
      Collects (decoding finishedPayload finishedResponse) [some (streamed finishedPayload)]
        (.ok (.completed ⟨"x", .stop, some ⟨5, 1⟩⟩)) := by
  have hgrammar : Grammatical (decoding finishedPayload finishedResponse) _ :=
    grammatical_decoding (by decide)
  have hline : SingleLine finishedPayload := ⟨by decide, by decide⟩
  have hstreams : Streams [some (streamed finishedPayload)] finishedPayload :=
    streams_streamed hline (bodyOf_single _)
  have hbounded : SseDecoder.default.Bounded
      ([some (streamed finishedPayload)].filterMap id) :=
    ⟨by decide +kernel, by decide +kernel, trivial⟩
  have hstatus : isSuccess 200 = true := rfl
  have hdecode := decoding_self finishedPayload finishedResponse
  have hgenerate := (generate_ok_iff hgrammar hstatus []).mpr
    ⟨finishedResponse, _, _, hdecode, rfl, rfl⟩
  have hagrees := (collect_agrees hgrammar hline hstreams hbounded hstatus [] _).1 hgenerate
  exact ⟨hgenerate, hagrees.mpr (reportOf_isSome hdecode rfl)⟩

/-- JSON with so many blanks after it. -/
def padded (text : String) (n : ℕ) : String := text ++ String.ofList (List.replicate n ' ')

theorem bytesOf_blanks (n : ℕ) :
    bytesOf (String.ofList (List.replicate n ' ')) = List.replicate n SseDecoder.space := by
  induction n with
  | zero => rfl
  | succ n ih =>
    have hone : bytesOf (String.ofList [' ']) = [SseDecoder.space] := by decide
    rw [List.replicate_succ, ← List.singleton_append, String.ofList_append, Utf8.bytesOf_append,
      ih, hone]
    rfl

theorem singleLine_padded {text : String} (h : SingleLine text) (n : ℕ) :
    SingleLine (padded text n) := by
  have hn : newline ≠ SseDecoder.space := by decide
  have hr : carriageReturn ≠ SseDecoder.space := by decide
  simp only [SingleLine, padded, Utf8.bytesOf_append, bytesOf_blanks, List.mem_append,
    List.mem_replicate, not_or]
  exact ⟨⟨h.1, fun hmem => hn hmem.2⟩, h.2, fun hmem => hr hmem.2⟩

/-- One frame that is longer than what may be pending. -/
theorem outcome_overflow {chunk : List UInt8} (h : maxPendingBytes < chunk.length) :
    outcome ext .default none [some chunk] = ⟨[], .malformedEvent⟩ := by
  have hpush : (SseDecoder.default.push chunk).1 =
      .error s!"a single event exceeded {maxPendingBytes} bytes without ending" := by
    simp [SseDecoder.push, SseDecoder.default, h]
  rcases hfound : SseDecoder.default.push chunk with ⟨detail | payloads, d⟩
  · simp only [outcome, hfound]
  · rw [hfound] at hpush
    cases hpush

/-- A response that `generate` accepts is not collected where it does not say why the generation
finished, and, if it does say so, where there is more of it than may be pending. -/
theorem collect_disagrees :
    (¬ ∀ ext fromSlice, Grammatical ext fromSlice → ∀ text frames, SingleLine text →
      Streams frames text → ∀ status request result, isSuccess status = true →
        generate ext fromSlice (.ok request) (.answered status (bytesOf text)) = .ok result →
        result.text ≠ "" → Collects ext frames (.ok (.completed result))) ∧
    ¬ ∀ ext fromSlice, Grammatical ext fromSlice → ∀ text frames, SingleLine text →
      Streams frames text → (reportOf ext text).isSome → ∀ status request result,
        isSuccess status = true →
        generate ext fromSlice (.ok request) (.answered status (bytesOf text)) = .ok result →
        result.text ≠ "" → Collects ext frames (.ok (.completed result)) := by
  constructor
  · intro hclaim
    have hgrammar : Grammatical (decoding samplePayload ⟨[⟨"x", none⟩], none⟩) _ :=
      grammatical_decoding (by decide)
    have hline : SingleLine samplePayload := ⟨by decide, by decide⟩
    have hstreams : Streams [some (streamed samplePayload)] samplePayload :=
      streams_streamed hline (bodyOf_single _)
    have hbounded : SseDecoder.default.Bounded ([some (streamed samplePayload)].filterMap id) :=
      ⟨by decide +kernel, by decide +kernel, trivial⟩
    have hstatus : isSuccess 200 = true := rfl
    have hgenerate := (generate_ok_iff hgrammar hstatus []).mpr
      ⟨_, _, _, decoding_self samplePayload _, rfl, rfl⟩
    have hcollects := hclaim _ _ hgrammar _ _ hline hstreams 200 [] _ hstatus hgenerate (by decide)
    rw [collects_completed_iff, outcome_gives_iff hgrammar hline hstreams hbounded] at hcollects
    obtain ⟨wire, choice, rest, hdecode, hchoices, hreported, -⟩ := hcollects
    cases hdecode
    cases hchoices
    cases hreported
  · intro hclaim
    have hobject : (padded finishedPayload maxPendingBytes).toList =
        '\x7b' :: (finishedPayload.toList.tail ++ List.replicate maxPendingBytes ' ') := by
      rw [padded, String.toList_append, String.toList_ofList]
      rfl
    have hgrammar : Grammatical
        (decoding (padded finishedPayload maxPendingBytes) finishedResponse) _ :=
      grammatical_decoding (isDone_object hobject)
    have hline : SingleLine (padded finishedPayload maxPendingBytes) :=
      singleLine_padded ⟨by decide, by decide⟩ _
    have hstreams := streams_streamed hline (bodyOf_single _)
    have hdecode := decoding_self (padded finishedPayload maxPendingBytes) finishedResponse
    have hstatus : isSuccess 200 = true := rfl
    have hgenerate := (generate_ok_iff hgrammar hstatus []).mpr
      ⟨finishedResponse, _, _, hdecode, rfl, rfl⟩
    have hreported := reportOf_isSome hdecode rfl
    have hcollects := hclaim _ _ hgrammar _ _ hline hstreams hreported 200 [] _ hstatus hgenerate
      (by decide)
    have hlong : maxPendingBytes < (streamed (padded finishedPayload maxPendingBytes)).length := by
      simp only [streamed, padded, Utf8.bytesOf_append, bytesOf_blanks, List.length_append,
        List.length_replicate]
      have hstart : (bytesOf "data: ").length = 6 := rfl
      omega
    rw [collects_completed_iff, outcome_overflow hlong] at hcollects
    obtain ⟨summary, hending, -⟩ := hcollects
    cases hending

end MehoyRuntime.Stream
