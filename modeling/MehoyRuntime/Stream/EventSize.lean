import MehoyRuntime.Stream.Framing

/-!
# Which events the size limit refuses

The lengths of the events of a stream, each with the comment and other lines before it and
with every line ending, against what `push` measures before it takes any line.
-/

namespace MehoyRuntime.Stream
open SseDecoder (newline carriageReturn)

inductive LineEnding
  | lf
  | cr
  | crlf
  deriving DecidableEq, Repr

def LineEnding.bytes : LineEnding → List UInt8
  | .lf => [newline]
  | .cr => [carriageReturn]
  | .crlf => [carriageReturn, newline]

structure RawLine where
  content : List UInt8
  ending : LineEnding
  deriving DecidableEq, Repr

def RawLine.bytes (line : RawLine) : List UInt8 := line.content ++ line.ending.bytes

def RawLine.extend (b : UInt8) (line : RawLine) : RawLine := { line with content := b :: line.content }

/-- The lines of `splitLines` with their endings, and the undecided bytes. -/
def rawLines : List UInt8 → List RawLine × List UInt8
  | [] => ([], [])
  | b :: rest =>
    if b = newline then (⟨[], .lf⟩ :: (rawLines rest).1, (rawLines rest).2)
    else if b = carriageReturn then
      match rest with
      | [] => ([], [carriageReturn])
      | c :: rest' =>
        if c = newline then (⟨[], .crlf⟩ :: (rawLines rest').1, (rawLines rest').2)
        else (⟨[], .cr⟩ :: (rawLines (c :: rest')).1, (rawLines (c :: rest')).2)
    else
      match rawLines rest with
      | ([], undecided) => ([], b :: undecided)
      | (line :: lines, undecided) => (line.extend b :: lines, undecided)

/-- The lengths of the events so far, the bytes of the lines since the last one, and whether
there is data among these. -/
structure Tally where
  finished : List ℕ
  current : ℕ
  held : Bool
  deriving DecidableEq, Repr

def Tally.line (t : Tally) (line : RawLine) : Tally :=
  if line.content.isEmpty && t.held then
    ⟨t.finished ++ [t.current + line.bytes.length], 0, false⟩
  else ⟨t.finished, t.current + line.bytes.length, t.held || (dataValue line.content).isSome⟩

def tally (bytes : List UInt8) : Tally := (rawLines bytes).1.foldl Tally.line ⟨[], 0, false⟩

/-- The bytes received since the last event. -/
def sinceEvent (bytes : List UInt8) : ℕ := (tally bytes).current + (rawLines bytes).2.length

/-- No event is longer than the limit, and what has come since the last one is not either. -/
structure Modest (bytes : List UInt8) : Prop where
  events : ∀ length ∈ (tally bytes).finished, length ≤ maxPendingBytes
  rest : sinceEvent bytes ≤ maxPendingBytes

def sizeError : String := s!"a single event exceeded {maxPendingBytes} bytes without ending"

/-- Only an oversized event is refused: a push returns the size error only when more than the
limit has come since the last event, and never on a stream whose events keep to the limit,
however it goes on. -/
structure RefusesOversized (received : List UInt8) (d : SseDecoder) (chunk : List UInt8) : Prop where
  since : (d.push chunk).1 = .error sizeError → maxPendingBytes < sinceEvent received + chunk.length
  modest : ∀ rest, Modest (received ++ chunk ++ rest) → (d.push chunk).1 ≠ .error sizeError

/-! ### Lines with their endings -/

theorem RawLine.length_lt (line : RawLine) : line.content.length + 1 ≤ line.bytes.length := by
  rw [RawLine.bytes, List.length_append]
  cases line.ending <;> simp [LineEnding.bytes]

theorem rawLines_newline (rest : List UInt8) :
    rawLines (newline :: rest) = (⟨[], .lf⟩ :: (rawLines rest).1, (rawLines rest).2) := by
  rw [rawLines.eq_def]
  rfl

theorem rawLines_pair (rest : List UInt8) :
    rawLines (carriageReturn :: newline :: rest) =
      (⟨[], .crlf⟩ :: (rawLines rest).1, (rawLines rest).2) := by
  rw [rawLines]
  rfl

theorem rawLines_return {c : UInt8} (hc : c ≠ newline) (rest : List UInt8) :
    rawLines (carriageReturn :: c :: rest) =
      (⟨[], .cr⟩ :: (rawLines (c :: rest)).1, (rawLines (c :: rest)).2) := by
  rw [rawLines, if_neg (by decide), if_pos rfl]
  exact if_neg hc

theorem rawLines_other {b : UInt8} (hn : b ≠ newline) (hr : b ≠ carriageReturn)
    (rest : List UInt8) :
    rawLines (b :: rest) =
      match rawLines rest with
      | ([], undecided) => ([], b :: undecided)
      | (line :: lines, undecided) => (line.extend b :: lines, undecided) := by
  rw [rawLines.eq_def]
  simp only [if_neg hn, if_neg hr]

theorem rawLines_split (bytes : List UInt8) :
    splitLines bytes = ((rawLines bytes).1.map RawLine.content, (rawLines bytes).2) := by
  induction bytes using splitLines.induct with
  | case1 => rfl
  | case2 rest ih => rw [splitLines_newline, rawLines_newline, ih, List.map_cons]
  | case3 h => rfl
  | case4 rest hb ih => rw [splitLines_pair, rawLines_pair, ih, List.map_cons]
  | case5 c rest hc hb ih => rw [splitLines_return hc, rawLines_return hc, ih, List.map_cons]
  | case6 b rest hn hr ih =>
    rw [splitLines_other hn hr, rawLines_other hn hr, ih]
    rcases rawLines rest with ⟨_ | ⟨line, lines⟩, undecided⟩ <;> rfl

theorem rawLines_bytes (bytes : List UInt8) :
    (rawLines bytes).1.flatMap RawLine.bytes ++ (rawLines bytes).2 = bytes := by
  induction bytes using splitLines.induct with
  | case1 => rfl
  | case2 rest ih =>
    rw [rawLines_newline, List.flatMap_cons, List.append_assoc, ih]
    rfl
  | case3 h => rfl
  | case4 rest hb ih =>
    rw [rawLines_pair, List.flatMap_cons, List.append_assoc, ih]
    rfl
  | case5 c rest hc hb ih =>
    rw [rawLines_return hc, List.flatMap_cons, List.append_assoc, ih]
    rfl
  | case6 b rest hn hr ih =>
    rw [rawLines_other hn hr]
    generalize rawLines rest = split at ih ⊢
    rcases split with ⟨_ | ⟨line, lines⟩, undecided⟩
    · simpa using ih
    · simpa [RawLine.extend, RawLine.bytes] using ih

theorem rawLines_append (a b : List UInt8) :
    rawLines (a ++ b) =
      ((rawLines a).1 ++ (rawLines ((rawLines a).2 ++ b)).1, (rawLines ((rawLines a).2 ++ b)).2) := by
  induction a using splitLines.induct with
  | case1 => rfl
  | case2 rest ih => rw [List.cons_append, rawLines_newline, rawLines_newline, ih, List.cons_append]
  | case3 h => rfl
  | case4 rest hb ih =>
    rw [List.cons_append, List.cons_append, rawLines_pair, rawLines_pair, ih, List.cons_append]
  | case5 c rest hc hb ih =>
    rw [List.cons_append] at ih
    rw [List.cons_append, List.cons_append, rawLines_return hc, rawLines_return hc, ih,
      List.cons_append]
  | case6 c rest hn hr ih =>
    rw [List.cons_append, rawLines_other hn hr, rawLines_other hn hr, ih]
    rcases rawLines rest with ⟨_ | ⟨line, lines⟩, undecided⟩
    · rw [List.nil_append, List.nil_append, List.cons_append, rawLines_other hn hr]
    · rfl

theorem tally_append (a b : List UInt8) :
    tally (a ++ b) = (rawLines ((rawLines a).2 ++ b)).1.foldl Tally.line (tally a) := by
  rw [tally, rawLines_append, List.foldl_append]
  rfl

/-! ### The events of a stream -/

def Tally.total (t : Tally) : ℕ := t.finished.sum + t.current

theorem Tally.line_total (t : Tally) (line : RawLine) :
    (t.line line).total = t.total + line.bytes.length := by
  unfold Tally.line Tally.total
  split
  · simp only [List.sum_append, List.sum_singleton]
    omega
  · dsimp only
    omega

theorem Tally.fold_total (t : Tally) (lines : List RawLine) :
    (lines.foldl Tally.line t).total = t.total + (lines.flatMap RawLine.bytes).length := by
  induction lines generalizing t with
  | nil => rfl
  | cons line lines ih =>
    rw [List.foldl_cons, ih, t.line_total, List.flatMap_cons, List.length_append]
    omega

theorem tally_sum (bytes : List UInt8) :
    (tally bytes).finished.sum + sinceEvent bytes = bytes.length := by
  have htotal := Tally.fold_total ⟨[], 0, false⟩ (rawLines bytes).1
  have hbytes := congrArg List.length (rawLines_bytes bytes)
  rw [List.length_append] at hbytes
  simp only [Tally.total, List.sum_nil] at htotal
  rw [sinceEvent, tally]
  omega

/-- What has come since the last event goes into the next one. -/
theorem Tally.fold_grows (t : Tally) (lines : List RawLine) :
    (∀ length ∈ t.finished, length ∈ (lines.foldl Tally.line t).finished) ∧
      (t.current ≤ (lines.foldl Tally.line t).current ∨
        ∃ length ∈ (lines.foldl Tally.line t).finished, t.current ≤ length) := by
  induction lines generalizing t with
  | nil => exact ⟨fun _ h => h, .inl (Nat.le_refl _)⟩
  | cons line lines ih =>
    rw [List.foldl_cons]
    obtain ⟨hkept, hgrows⟩ := ih (t.line line)
    by_cases hends : (line.content.isEmpty && t.held) = true
    · have hline : t.line line = ⟨t.finished ++ [t.current + line.bytes.length], 0, false⟩ := if_pos hends
      rw [hline] at hkept ⊢
      refine ⟨fun length hmem => hkept _ (List.mem_append_left _ hmem), .inr ?_⟩
      exact ⟨_, hkept _ (List.mem_append_right _ (List.mem_singleton_self _)), Nat.le_add_right _ _⟩
    · have hline : t.line line =
          ⟨t.finished, t.current + line.bytes.length, t.held || (dataValue line.content).isSome⟩ :=
        if_neg hends
      rw [hline] at hkept hgrows ⊢
      refine ⟨hkept, ?_⟩
      rcases hgrows with hcurrent | ⟨length, hmem, hlength⟩
      · exact .inl (by dsimp only at hcurrent; omega)
      · exact .inr ⟨length, hmem, by dsimp only at hlength; omega⟩

/-- The undecided bytes are within the first line that comes of them. -/
theorem rawLines_undecided {undecided rest : List UInt8} {line : RawLine} {lines : List RawLine}
    (h : (rawLines undecided).1 = []) (hlines : (rawLines (undecided ++ rest)).1 = line :: lines) :
    undecided.length ≤ line.bytes.length := by
  induction undecided using splitLines.induct generalizing line lines with
  | case1 => exact Nat.zero_le _
  | case2 bytes ih =>
    rw [rawLines_newline] at h
    cases h
  | case3 hnil => exact Nat.le_trans (Nat.le_add_left 1 _) line.length_lt
  | case4 bytes hb ih =>
    rw [rawLines_pair] at h
    cases h
  | case5 c bytes hc hb ih =>
    rw [rawLines_return hc] at h
    cases h
  | case6 b bytes hn hr ih =>
    rw [rawLines_other hn hr] at h
    have hnone : (rawLines bytes).1 = [] := by
      rcases hsplit : rawLines bytes with ⟨_ | ⟨first, more⟩, undecided⟩
      · rfl
      · rw [hsplit] at h
        cases h
    rw [List.cons_append, rawLines_other hn hr] at hlines
    rcases hsplit : rawLines (bytes ++ rest) with ⟨_ | ⟨first, more⟩, undecided⟩
    · rw [hsplit] at hlines
      cases hlines
    · rw [hsplit] at hlines
      cases hlines
      have hfirst := ih hnone (congrArg Prod.fst hsplit)
      simp only [RawLine.bytes, RawLine.extend, List.length_append, List.length_cons] at hfirst ⊢
      omega

theorem rawLines_rest (bytes : List UInt8) : (rawLines (rawLines bytes).2).1 = [] := by
  have h := congrArg Prod.fst (rawLines_append bytes [])
  simpa using h

/-- What keeps to the limit has done so all along. -/
theorem Modest.of_append {bytes more : List UInt8} (h : Modest (bytes ++ more)) : Modest bytes := by
  have hfold := tally_append bytes more
  rcases hlines : (rawLines ((rawLines bytes).2 ++ more)).1 with _ | ⟨line, lines⟩
  · rw [hlines] at hfold
    have hsame : tally (bytes ++ more) = tally bytes := hfold
    have hbefore := tally_sum bytes
    have hafter := tally_sum (bytes ++ more)
    have hrest := h.rest
    rw [hsame, List.length_append] at hafter
    refine ⟨fun length hmem => h.events length (hsame ▸ hmem), ?_⟩
    omega
  · rw [hlines, List.foldl_cons] at hfold
    have hfirst := rawLines_undecided (rawLines_rest bytes) hlines
    obtain ⟨hkept, hgrows⟩ := ((tally bytes).line line).fold_grows lines
    rw [← hfold] at hkept hgrows
    have hrest := h.rest
    rw [sinceEvent] at hrest
    by_cases hends : (line.content.isEmpty && (tally bytes).held) = true
    · rw [show (tally bytes).line line = _ from if_pos hends] at hkept
      have hended := h.events _ (hkept _ (List.mem_append_right _ (List.mem_singleton_self _)))
      refine ⟨fun length hmem => h.events length (hkept length (List.mem_append_left _ hmem)), ?_⟩
      rw [sinceEvent]
      omega
    · rw [show (tally bytes).line line = _ from if_neg hends] at hkept hgrows
      refine ⟨fun length hmem => h.events length (hkept length hmem), ?_⟩
      rw [sinceEvent]
      rcases hgrows with hcurrent | ⟨length, hmem, hlength⟩
      · dsimp only at hcurrent
        omega
      · have hended := h.events length hmem
        dsimp only at hlength
        omega

/-- The decoder holds data exactly where there is some since the last event, no more of it than
the lines since then, and it has returned one event for each length. -/
structure Counts (d : SseDecoder) (events : List String) (t : Tally) : Prop where
  held : d.hasData = t.held
  data : d.data.utf8ByteSize ≤ t.current
  events : t.finished.length = events.length

theorem Counts.consume {d d' : SseDecoder} {events : List String} {t : Tally} {line : RawLine}
    {event : Option String} (h : Counts d events t) (hc : d.consume line.content = (.ok event, d')) :
    Counts d' (events ++ event.toList) (t.line line) := by
  have hsize := consume_size hc
  have hlength := line.length_lt
  have hdata := h.data
  unfold Tally.line
  rcases consume_cases hc with ⟨hnil, hheld, rfl, rfl⟩ | ⟨hvalue, hblank, rfl, rfl⟩ |
    ⟨value, decoded, hvalue, -, rfl, rfl⟩
  · rw [hnil, ← h.held, hheld]
    exact ⟨rfl, Nat.le_refl _, by simp [h.events]⟩
  · have hends : (line.content.isEmpty && t.held) = false := by
      rw [← h.held]
      cases hempty : line.content.isEmpty with
      | false => rfl
      | true => simp [hblank (List.isEmpty_iff.mp hempty)]
    rw [hends, hvalue]
    exact ⟨by simpa using h.held, Nat.le_add_right_of_le hdata, by simpa using h.events⟩
  · have hends : (line.content.isEmpty && t.held) = false := by
      cases hempty : line.content.isEmpty with
      | false => rfl
      | true =>
        rw [List.isEmpty_iff.mp hempty] at hvalue
        cases hvalue
    rw [hends, hvalue]
    simp only [eventBytes, Option.toList_none, List.map_nil, List.sum_nil] at hsize
    refine ⟨by simp [joined], ?_, by simpa using h.events⟩
    show _ ≤ t.current + line.bytes.length
    omega

theorem Counts.feed {d d' : SseDecoder} {events found : List String} {t : Tally}
    {lines : List RawLine} (h : Counts d events t)
    (hfeed : d.feed (lines.map RawLine.content) = (found, .ok d')) :
    Counts d' (events ++ found) (lines.foldl Tally.line t) := by
  induction lines generalizing d events found t with
  | nil =>
    cases hfeed
    simpa using h
  | cons line lines ih =>
    rw [List.map_cons] at hfeed
    rcases hc : d.consume line.content with ⟨detail | event, after⟩
    · simp [SseDecoder.feed, hc] at hfeed
    · rcases hf : after.feed (lines.map RawLine.content) with ⟨more, result⟩
      rw [SseDecoder.feed_cons hc, hf] at hfeed
      cases hfeed
      rw [← List.append_assoc]
      exact ih (h.consume hc) hf

theorem SseDecoder.Took.counts {bytes : List UInt8} {events : List String} {d : SseDecoder}
    (h : Took bytes events d) : Counts d events (tally bytes) := by
  have hfeed := h.1
  rw [rawLines_split] at hfeed
  have hstart : Counts .default [] ⟨[], 0, false⟩ := ⟨rfl, Nat.le_refl _, rfl⟩
  have hcounts := hstart.feed hfeed
  exact ⟨hcounts.held, hcounts.data, hcounts.events⟩

/-! ### The error -/

namespace SseDecoder

theorem consume_error {d d' : SseDecoder} {line : List UInt8} {detail : String}
    (h : d.consume line = (.error detail, d')) :
    ∃ err : String, detail = s!"a data line was not valid UTF-8: {err}" := by
  cases hline : line.isEmpty with
  | true =>
    rw [List.isEmpty_iff.mp hline, consume_nil] at h
    split at h <;> cases h
  | false =>
    rw [consume_field d hline] at h
    split at h
    · cases h
    · split at h <;> cases h
      exact ⟨_, rfl⟩

theorem drainLines_error {fuel : ℕ} {d : SseDecoder} {events : List String} {detail : String}
    (h : (drainLines fuel d events).1 = .error detail) :
    ∃ err : String, detail = s!"a data line was not valid UTF-8: {err}" := by
  induction fuel generalizing d events with
  | zero => cases h
  | succ fuel ih =>
    rcases htake : d.takeLine with ⟨_ | line, after⟩
    · simp only [drainLines, htake] at h
      cases h
    · rcases hconsume : after.consume line with ⟨err | event, consumed⟩
      · simp only [drainLines, htake, hconsume] at h
        cases h
        exact consume_error hconsume
      · rw [drainLines_step htake hconsume] at h
        exact ih h

theorem sizeError_ne (err : String) : sizeError ≠ s!"a data line was not valid UTF-8: {err}" := by
  -- The two texts part at their third letter.
  have hdiffer : ∀ more : String,
      "a single event exceeded " ++ more ≠ "a data line was not valid UTF-8: " ++ err := by
    intro more h
    have hlists := congrArg String.toList h
    rw [String.toList_append, String.toList_append] at hlists
    have hthird := congrArg (fun letters => letters[2]?) hlists
    rw [List.getElem?_append_left (by decide), List.getElem?_append_left (by decide)] at hthird
    exact absurd hthird (by decide)
  have htext : sizeError =
      "a single event exceeded " ++ (toString maxPendingBytes ++ " bytes without ending") :=
    String.append_assoc ..
  rw [htext]
  exact hdiffer _

/-- The size error is returned where the buffer with the whole chunk, or the data, is over the
limit. -/
theorem push_sizeError_iff {d : SseDecoder} {chunk : List UInt8} :
    (d.push chunk).1 = .error sizeError ↔
      maxPendingBytes < d.buffer.length + chunk.length ∨ maxPendingBytes < d.data.utf8ByteSize := by
  simp only [push, List.length_append, Bool.or_eq_true, decide_eq_true_eq]
  by_cases hover : maxPendingBytes < d.buffer.length + chunk.length ∨
      maxPendingBytes < d.data.utf8ByteSize
  · rw [if_pos hover]
    exact iff_of_true rfl hover
  · rw [if_neg hover]
    refine iff_of_false (fun h => ?_) hover
    obtain ⟨err, herr⟩ := drainLines_error h
    exact sizeError_ne err herr

end SseDecoder

variable {received chunk : List UInt8} {events : List String} {d : SseDecoder}

theorem SseDecoder.Took.refuses_iff (h : Took received events d) (chunk : List UInt8) :
    RefusesOversized received d chunk ↔
      d.buffer.length + chunk.length ≤ maxPendingBytes ∨ ¬ Modest (received ++ chunk) := by
  have hdata := h.counts.data
  have hbuffer : d.buffer.length = (rawLines received).2.length := by
    rw [h.2, rawLines_split]
  constructor
  · intro hrefuses
    by_cases hmodest : Modest (received ++ chunk)
    · have hpush := hrefuses.modest [] (by rwa [List.append_nil])
      rw [ne_eq, push_sizeError_iff] at hpush
      exact .inl (by omega)
    · exact .inr hmodest
  · intro hcondition
    constructor
    case since =>
      intro hpush
      rw [push_sizeError_iff] at hpush
      rw [sinceEvent, ← hbuffer]
      omega
    case modest =>
      intro rest hwhole hpush
      have hmodest := hwhole.of_append
      rw [push_sizeError_iff] at hpush
      have hfits : d.buffer.length + chunk.length ≤ maxPendingBytes := by
        rcases hcondition with hfits | hover
        · exact hfits
        · exact absurd hmodest hover
      -- The data is part of what the next event, or the end of the stream, counts.
      have hgrows := (Tally.fold_grows (tally received)
        (rawLines ((rawLines received).2 ++ chunk)).1).2
      rw [← tally_append] at hgrows
      have hcurrent : (tally received).current ≤ maxPendingBytes := by
        rcases hgrows with hle | ⟨length, hmem, hle⟩
        · have hrest := hmodest.rest
          rw [sinceEvent] at hrest
          omega
        · exact Nat.le_trans hle (hmodest.events length hmem)
      omega

/-- A chunk that completes no event is refused only if the event it goes on with is oversized. -/
theorem SseDecoder.Took.refuses_unfinished (h : Took received events d)
    (hsame : (tally (received ++ chunk)).finished = (tally received).finished) :
    RefusesOversized received d chunk := by
  rw [h.refuses_iff]
  by_cases hfits : d.buffer.length + chunk.length ≤ maxPendingBytes
  · exact .inl hfits
  · refine .inr fun hmodest => ?_
    have hbefore := tally_sum received
    have hafter := tally_sum (received ++ chunk)
    have hbuffer : d.buffer.length = (rawLines received).2.length := by
      rw [h.2, rawLines_split]
    have hrest := hmodest.rest
    rw [hsame, List.length_append] at hafter
    rw [sinceEvent, ← hbuffer] at hbefore
    omega

/-- A push refuses only what is oversized exactly when the line that is still open and the
chunk keep to the limit together, or the stream does not keep to it. -/
theorem push_refuses_iff {before : List (List UInt8)}
    (h : SseDecoder.default.pushAll before = (.ok events, d)) (chunk : List UInt8) :
    RefusesOversized before.flatten d chunk ↔
      d.buffer.length + chunk.length ≤ maxPendingBytes ∨ ¬ Modest (before.flatten ++ chunk) := by
  have htook : SseDecoder.Took before.flatten events d := by
    simpa using SseDecoder.took_nil.pushAll h
  exact htook.refuses_iff chunk

/-- An event in two chunks with the start of a second one; the next chunk ends that one, carries a
third and starts a fourth. -/
def openedChunks : List (List UInt8) :=
  [[0x64, 0x61, 0x74, 0x61, 0x3a, 0x61, 0x0a], [0x0a, 0x64, 0x61, 0x74, 0x61]]

def severalEvents : List UInt8 :=
  [0x3a, 0x62, 0x0a, 0x0a, 0x64, 0x61, 0x74, 0x61, 0x3a, 0x63, 0x0a, 0x0a, 0x64, 0x61]

theorem push_refuses_single : ∃ d, SseDecoder.default.pushAll openedChunks = (.ok ["a"], d) ∧
    d.buffer = [0x64, 0x61, 0x74, 0x61] ∧ (d.push severalEvents).1 = .ok ["b", "c"] ∧
    RefusesOversized openedChunks.flatten d severalEvents := by
  obtain ⟨d, hpush, hbuffer, hnext⟩ : ∃ d, SseDecoder.default.pushAll openedChunks = (.ok ["a"], d) ∧
      d.buffer = [0x64, 0x61, 0x74, 0x61] ∧ (d.push severalEvents).1 = .ok ["b", "c"] :=
    ⟨⟨[0x64, 0x61, 0x74, 0x61], "", false⟩, by decide, rfl, by decide⟩
  refine ⟨d, hpush, hbuffer, hnext, (push_refuses_iff hpush _).mpr (.inl ?_)⟩
  rw [hbuffer]
  decide

/-! ### Many small events in one chunk -/

/-- `data:x` and a blank line. -/
def smallEvent : List UInt8 := [0x64, 0x61, 0x74, 0x61, 0x3a, 0x78, 0x0a, 0x0a]

def smallEvents (n : ℕ) : List UInt8 := (List.replicate n smallEvent).flatten

theorem smallEvents_succ (n : ℕ) : smallEvents (n + 1) = smallEvents n ++ smallEvent := by
  simp [smallEvents, List.replicate_succ']

theorem smallEvents_length (n : ℕ) : (smallEvents n).length = 8 * n := by
  induction n with
  | zero => rfl
  | succ n ih =>
    rw [smallEvents_succ, List.length_append, ih]
    rfl

theorem smallEvents_tally (n : ℕ) :
    tally (smallEvents n) = ⟨List.replicate n 8, 0, false⟩ ∧ (rawLines (smallEvents n)).2 = [] := by
  induction n with
  | zero => exact ⟨rfl, rfl⟩
  | succ n ih =>
    obtain ⟨htally, hrest⟩ := ih
    rw [smallEvents_succ, tally_append, rawLines_append (smallEvents n), hrest, htally,
      List.replicate_succ']
    exact ⟨rfl, rfl⟩

theorem smallEvents_modest (n : ℕ) : Modest (smallEvents n) := by
  obtain ⟨htally, hrest⟩ := smallEvents_tally n
  have hlimit : 8 ≤ maxPendingBytes := by decide
  constructor
  case events =>
    intro length hmem
    rw [htally] at hmem
    rw [List.eq_of_mem_replicate hmem]
    exact hlimit
  case rest =>
    rw [sinceEvent, htally, hrest]
    exact Nat.zero_le _

theorem smallEvents_over {n : ℕ} (h : 2 ^ 20 < n) : maxPendingBytes < (smallEvents n).length := by
  rw [smallEvents_length, maxPendingBytes]
  omega

theorem refused_of_over (hmodest : Modest chunk) (hover : maxPendingBytes < chunk.length) :
    ¬ RefusesOversized [] .default chunk := by
  intro hrefuses
  refine hrefuses.modest [] (by rwa [List.append_nil]) (SseDecoder.push_sizeError_iff.mpr (.inl ?_))
  exact Nat.lt_of_lt_of_le hover (Nat.le_add_left _ _)

/-- 2 ^ 20 + 1 events of eight bytes each are refused as one that is too long. -/
theorem push_refuses_smallEvents :
    ¬ ∀ before events d, SseDecoder.default.pushAll before = (.ok events, d) →
      ∀ chunk, RefusesOversized before.flatten d chunk := by
  intro hclaim
  have hover : maxPendingBytes < (smallEvents (2 ^ 20 + 1)).length :=
    smallEvents_over (Nat.lt_succ_self _)
  exact refused_of_over (smallEvents_modest _) hover (hclaim [] [] .default rfl _)

end MehoyRuntime.Stream
