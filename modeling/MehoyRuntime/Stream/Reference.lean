import MehoyRuntime.Lib.Utf8
import MehoyRuntime.Stream.Sse

/-!
# The decoder and a one-shot parser

What a whole stream of bytes means, read at once: its lines, the values of its data
lines, and the events that blank lines dispatch. Undecided bytes are what does not form
a line yet. Since the lines of two runs of bytes are the lines of their concatenation
once the undecided bytes are carried over, pushing in any chunks comes to the same.
-/

namespace MehoyRuntime.Stream
open Utf8
open SseDecoder (newline carriageReturn colon space dataField)

/-! ### The reference -/

/-- A byte that ends no line, before what follows it. -/
def extendLine (b : UInt8) : List (List UInt8) × List UInt8 → List (List UInt8) × List UInt8
  | ([], undecided) => ([], b :: undecided)
  | (line :: lines, undecided) => ((b :: line) :: lines, undecided)

/-- The lines of `bytes` and the undecided bytes after them. CRLF, LF and a CR that is
followed by another byte end a line. -/
def splitLines : List UInt8 → List (List UInt8) × List UInt8
  | [] => ([], [])
  | b :: rest =>
    if b = newline then ([] :: (splitLines rest).1, (splitLines rest).2)
    else if b = carriageReturn then
      match rest with
      | [] => ([], [carriageReturn])
      | c :: rest' =>
        if c = newline then ([] :: (splitLines rest').1, (splitLines rest').2)
        else ([] :: (splitLines (c :: rest')).1, (splitLines (c :: rest')).2)
    else extendLine b (splitLines rest)

/-- The value of a data line: without one leading space, and empty without a colon. -/
def dataValue (line : List UInt8) : Option (List UInt8) :=
  if line.takeWhile (· ≠ colon) = dataField then
    match line.dropWhile (· ≠ colon) with
    | [] => some []
    | _ :: raw => some (if raw.head? = some space then raw.tail else raw)
  else none

def joinLines : List (List UInt8) → List UInt8
  | [] => []
  | [value] => value
  | value :: values => value ++ newline :: joinLines values

/-- The events of `lines` after the data values held, and the values held in the end. -/
def dispatch : List (List UInt8) → List (List UInt8) → List (List UInt8) × List (List UInt8)
  | held, [] => ([], held)
  | held, line :: lines =>
    if line.isEmpty then
      if held.isEmpty then dispatch [] lines
      else (joinLines held :: (dispatch [] lines).1, (dispatch [] lines).2)
    else dispatch (held ++ (dataValue line).toList) lines

structure Parsed where
  events : List (List UInt8)
  unfinished : Bool
  deriving DecidableEq, Repr

def reference (bytes : List UInt8) : Parsed :=
  let (lines, undecided) := splitLines bytes
  let (events, held) := dispatch [] lines
  ⟨events, !undecided.isEmpty || !held.isEmpty⟩

example : reference [0x64, 0x61, 0x74, 0x61, 0x3a, 0x20, 0x68, 0x0d, 0x0a, 0x0d, 0x0a] =
    ⟨[[0x68]], false⟩ := by decide

/-! ### Lines -/

theorem splitLines_newline (rest : List UInt8) :
    splitLines (newline :: rest) = ([] :: (splitLines rest).1, (splitLines rest).2) := by
  rw [splitLines.eq_def]
  rfl

theorem splitLines_pair (rest : List UInt8) :
    splitLines (carriageReturn :: newline :: rest) =
      ([] :: (splitLines rest).1, (splitLines rest).2) := by
  rw [splitLines]
  rfl

theorem splitLines_return {c : UInt8} (hc : c ≠ newline) (rest : List UInt8) :
    splitLines (carriageReturn :: c :: rest) =
      ([] :: (splitLines (c :: rest)).1, (splitLines (c :: rest)).2) := by
  rw [splitLines, if_neg (by decide), if_pos rfl]
  exact if_neg hc

theorem splitLines_other {b : UInt8} (hn : b ≠ newline) (hr : b ≠ carriageReturn)
    (rest : List UInt8) : splitLines (b :: rest) = extendLine b (splitLines rest) := by
  rw [splitLines.eq_def]
  simp only [if_neg hn, if_neg hr]

theorem extendLine_append {b : UInt8} (hn : b ≠ newline) (hr : b ≠ carriageReturn)
    (split : List (List UInt8) × List UInt8) (rest : List UInt8) :
    extendLine b (split.1 ++ (splitLines (split.2 ++ rest)).1, (splitLines (split.2 ++ rest)).2) =
      ((extendLine b split).1 ++ (splitLines ((extendLine b split).2 ++ rest)).1,
        (splitLines ((extendLine b split).2 ++ rest)).2) := by
  obtain ⟨lines, undecided⟩ := split
  cases lines with
  | nil => simp [extendLine, splitLines_other hn hr]
  | cons line lines => rfl

/-- The lines of two runs of bytes: those of the first, and those of the second after the
bytes the first left undecided. -/
theorem splitLines_append (a b : List UInt8) :
    splitLines (a ++ b) =
      ((splitLines a).1 ++ (splitLines ((splitLines a).2 ++ b)).1,
        (splitLines ((splitLines a).2 ++ b)).2) := by
  induction a using splitLines.induct with
  | case1 => rfl
  | case2 rest ih => simp [splitLines_newline, ih]
  | case3 h => rfl
  | case4 rest hb ih => simp [splitLines_pair, ih]
  | case5 c rest hc hb ih =>
    rw [List.cons_append] at ih
    rw [List.cons_append, List.cons_append, splitLines_return hc, splitLines_return hc, ih]
    rfl
  | case6 c rest hn hr ih =>
    rw [List.cons_append, splitLines_other hn hr, splitLines_other hn hr, ih,
      extendLine_append hn hr]

/-! ### The decoder line by line -/

theorem lineEnd_other {b : UInt8} (hn : b ≠ newline) (hr : b ≠ carriageReturn)
    (rest : List UInt8) :
    SseDecoder.lineEnd (b :: rest) =
      (SseDecoder.lineEnd rest).map fun found => (found.1 + 1, found.2 + 1) := by
  unfold SseDecoder.lineEnd
  simp only [List.findIdx?_cons, hn, hr, decide_false, Bool.or_self, Bool.false_eq_true, if_false]
  cases rest.findIdx? fun b => decide (b = newline) || decide (b = carriageReturn) with
  | none => rfl
  | some index =>
    simp only [Option.map_some, List.getElem?_cons_succ]
    split
    · cases rest[index + 1]? with
      | none => rfl
      | some c =>
        by_cases hc : c = newline
        · simp only [if_pos hc, Option.map_some]
        · simp only [if_neg hc, Option.map_some]
    · rfl

/-- Where the decoder finds the end of a line, the line is the first one. -/
theorem splitLines_lineEnd (buffer : List UInt8) :
    splitLines buffer =
      match SseDecoder.lineEnd buffer with
      | none => ([], buffer)
      | some (index, consumed) =>
        (buffer.take index :: (splitLines (buffer.drop consumed)).1,
          (splitLines (buffer.drop consumed)).2) := by
  induction buffer using splitLines.induct with
  | case1 => rfl
  | case2 rest ih => exact splitLines_newline rest
  | case3 h => rfl
  | case4 rest hb ih => exact splitLines_pair rest
  | case5 c rest hc hb ih =>
    have hend : SseDecoder.lineEnd (carriageReturn :: c :: rest) = some (0, 1) := by
      simp [SseDecoder.lineEnd, List.findIdx?_cons, hc]
    rw [hend, splitLines_return hc]
    rfl
  | case6 c rest hn hr ih =>
    rw [splitLines_other hn hr, ih, lineEnd_other hn hr]
    cases SseDecoder.lineEnd rest with
    | none => rfl
    | some found => rfl

theorem takeLine_cases (d : SseDecoder) :
    (d.takeLine = (none, d) ∧ splitLines d.buffer = ([], d.buffer)) ∨
    ∃ line rest, d.takeLine = (some line, { d with buffer := rest }) ∧
      splitLines d.buffer = (line :: (splitLines rest).1, (splitLines rest).2) := by
  have hsplit := splitLines_lineEnd d.buffer
  unfold SseDecoder.takeLine
  cases hend : SseDecoder.lineEnd d.buffer with
  | none =>
    rw [hend] at hsplit
    exact .inl ⟨rfl, hsplit⟩
  | some found =>
    rw [hend] at hsplit
    exact .inr ⟨_, _, rfl, hsplit⟩

namespace SseDecoder

/-- The lines one by one: the events dispatched before the first malformed data line, and
either the text of its error or the decoder after the last line. -/
def feed (d : SseDecoder) : List (List UInt8) → List String × Except String SseDecoder
  | [] => ([], .ok d)
  | line :: lines =>
    match d.consume line with
    | (.error detail, _) => ([], .error detail)
    | (.ok none, d') => d'.feed lines
    | (.ok (some event), d') => (event :: (d'.feed lines).1, (d'.feed lines).2)

def withBuffer (d : SseDecoder) (buffer : List UInt8) : SseDecoder := { d with buffer }

theorem consume_withBuffer (d : SseDecoder) (buffer line : List UInt8) :
    (d.withBuffer buffer).consume line =
      ((d.consume line).1, (d.consume line).2.withBuffer buffer) := by
  unfold consume withBuffer
  dsimp only
  split
  · split <;> rfl
  · split
    · rfl
    · split
      · rfl
      · split <;> rfl

theorem feed_withBuffer (d : SseDecoder) (buffer : List UInt8) (lines : List (List UInt8)) :
    (d.withBuffer buffer).feed lines =
      ((d.feed lines).1, (d.feed lines).2.map fun d' => d'.withBuffer buffer) := by
  induction lines generalizing d with
  | nil => rfl
  | cons line lines ih =>
    simp only [feed, consume_withBuffer]
    rcases d.consume line with ⟨detail | event, d'⟩
    · rfl
    · cases event with
      | none => exact ih d'
      | some event => simp only [ih d']

theorem feed_append {d d' : SseDecoder} {lines : List (List UInt8)} {events : List String}
    (h : d.feed lines = (events, .ok d')) (more : List (List UInt8)) :
    d.feed (lines ++ more) = (events ++ (d'.feed more).1, (d'.feed more).2) := by
  induction lines generalizing d events with
  | nil =>
    cases h
    rfl
  | cons line lines ih =>
    simp only [List.cons_append, feed] at h ⊢
    rcases hc : d.consume line with ⟨detail | event, after⟩
    · simp [hc] at h
    · cases event with
      | none =>
        simp only [hc] at h ⊢
        exact ih h
      | some event =>
        simp only [hc, Prod.mk.injEq] at h ⊢
        obtain ⟨rfl, hrest⟩ := h
        rw [ih (Prod.ext rfl hrest)]
        exact ⟨rfl, rfl⟩

theorem feed_append_error {d : SseDecoder} {lines : List (List UInt8)} {events : List String}
    {detail : String} (h : d.feed lines = (events, .error detail)) (more : List (List UInt8)) :
    d.feed (lines ++ more) = (events, .error detail) := by
  induction lines generalizing d events with
  | nil => cases h
  | cons line lines ih =>
    simp only [List.cons_append, feed] at h ⊢
    rcases hc : d.consume line with ⟨detail' | event, after⟩
    · simpa [hc] using h
    · cases event with
      | none =>
        simp only [hc] at h ⊢
        exact ih h
      | some event =>
        simp only [hc, Prod.mk.injEq] at h ⊢
        obtain ⟨rfl, hrest⟩ := h
        rw [ih (Prod.ext rfl hrest)]
        exact ⟨rfl, rfl⟩

theorem takeLine_withBuffer {d d' : SseDecoder} {line : List UInt8}
    (h : d.takeLine = (some line, d')) : ∃ rest, d' = d.withBuffer rest ∧
      rest.length < d.buffer.length ∧
      splitLines d.buffer = (line :: (splitLines rest).1, (splitLines rest).2) := by
  have hlt := takeLine_length h
  rcases takeLine_cases d with ⟨hnone, -⟩ | ⟨line', rest, hsome, hsplit⟩
  · rw [hnone] at h
    cases h
  · rw [hsome] at h
    cases h
    exact ⟨rest, rfl, hlt, hsplit⟩

theorem feed_cons {d d' : SseDecoder} {line : List UInt8} {event : Option String}
    (h : d.consume line = (.ok event, d')) (lines : List (List UInt8)) :
    d.feed (line :: lines) = (event.toList ++ (d'.feed lines).1, (d'.feed lines).2) := by
  simp only [feed, h]
  cases event <;> rfl

theorem drainLines_step {d after consumed : SseDecoder} {line : List UInt8}
    {event : Option String} (htake : d.takeLine = (some line, after))
    (hc : after.consume line = (.ok event, consumed)) (fuel : ℕ) (events : List String) :
    drainLines (fuel + 1) d events = drainLines fuel consumed (events ++ event.toList) := by
  simp only [drainLines, htake, hc]
  cases event <;> simp

/-- The loop of `push` feeds the lines of what is held, all of them or up to an error. -/
theorem drainLines_eq (fuel : ℕ) (d : SseDecoder) (events : List String)
    (hfuel : d.buffer.length ≤ fuel) :
    match d.feed (splitLines d.buffer).1 with
    | (found, .ok d') =>
      drainLines fuel d events = (.ok (events ++ found), d'.withBuffer (splitLines d.buffer).2)
    | (_, .error detail) => (drainLines fuel d events).1 = .error detail := by
  induction fuel generalizing d events with
  | zero =>
    have hnil : d.buffer = [] := List.length_eq_zero_iff.mp (by omega)
    have hsplit : splitLines d.buffer = ([], d.buffer) := by rw [hnil]; rfl
    simp [hsplit, feed, drainLines, withBuffer]
  | succ fuel ih =>
    rcases htake : d.takeLine with ⟨_ | line, after⟩
    · rcases takeLine_cases d with ⟨hnone, hsplit⟩ | ⟨line, rest, hsome, -⟩
      · rw [htake] at hnone
        cases hnone
        simp [hsplit, feed, drainLines, htake, withBuffer]
      · rw [htake] at hsome
        cases hsome
    · obtain ⟨rest, rfl, hlt, hsplit⟩ := takeLine_withBuffer htake
      rcases hc : d.consume line with ⟨detail | event, consumed⟩
      · simp [hsplit, feed, hc, drainLines, htake, consume_withBuffer]
      · have hc' : (d.withBuffer rest).consume line = (.ok event, consumed.withBuffer rest) := by
          rw [consume_withBuffer, hc]
        have hlen : (consumed.withBuffer rest).buffer.length ≤ fuel := by
          change rest.length ≤ fuel
          omega
        have hrest := ih (consumed.withBuffer rest) (events ++ event.toList) hlen
        rw [hsplit, feed_cons hc, drainLines_step htake hc']
        rw [feed_withBuffer] at hrest
        simp only [withBuffer] at hrest ⊢
        rcases hf : consumed.feed (splitLines rest).1 with ⟨found, detail | d'⟩
        · simpa [hf, Except.map] using hrest
        · simpa [hf, Except.map] using hrest

/-! ### Pushes -/

/-- Pushes in order, up to the first that returns an error. -/
def pushAll (d : SseDecoder) : List (List UInt8) → Except String (List String) × SseDecoder
  | [] => (.ok [], d)
  | chunk :: chunks =>
    match d.push chunk with
    | (.error detail, d') => (.error detail, d')
    | (.ok events, d') =>
      match d'.pushAll chunks with
      | (.error detail, d'') => (.error detail, d'')
      | (.ok more, d'') => (.ok (events ++ more), d'')

/-- The decoder after bytes it took without an error, and the events it returned. -/
def Took (bytes : List UInt8) (events : List String) (d : SseDecoder) : Prop :=
  default.feed (splitLines bytes).1 = (events, .ok (d.withBuffer [])) ∧
    d.buffer = (splitLines bytes).2

theorem took_nil : Took [] [] default := ⟨rfl, rfl⟩

/-- The lines of the bytes taken and of a chunk after them are fed one run after the other. -/
theorem Took.feed {bytes : List UInt8} {events : List String} {d : SseDecoder}
    (h : Took bytes events d) (chunk : List UInt8) :
    default.feed (splitLines (bytes ++ chunk)).1 =
        (events ++ (d.feed (splitLines (d.buffer ++ chunk)).1).1,
          (d.feed (splitLines (d.buffer ++ chunk)).1).2.map fun d' => d'.withBuffer []) ∧
      (splitLines (bytes ++ chunk)).2 = (splitLines (d.buffer ++ chunk)).2 := by
  rw [splitLines_append, ← h.2, feed_append h.1, feed_withBuffer]
  exact ⟨rfl, rfl⟩

/-- A push that does not overflow feeds the lines that the chunk completes. -/
theorem push_eq {d : SseDecoder} {chunk : List UInt8}
    (hbuffer : d.buffer.length + chunk.length ≤ maxPendingBytes)
    (hdata : d.data.utf8ByteSize ≤ maxPendingBytes) :
    match d.feed (splitLines (d.buffer ++ chunk)).1 with
    | (found, .ok d') =>
      d.push chunk = (.ok found, d'.withBuffer (splitLines (d.buffer ++ chunk)).2)
    | (_, .error detail) => (d.push chunk).1 = .error detail := by
  have hfits : ¬ (maxPendingBytes < (d.buffer ++ chunk).length ∨ maxPendingBytes < d.data.utf8ByteSize) := by
    rw [List.length_append]
    omega
  have hpush : d.push chunk =
      drainLines (d.buffer ++ chunk).length (d.withBuffer (d.buffer ++ chunk)) [] := by
    simp only [push, Bool.or_eq_true, decide_eq_true_eq, if_neg hfits]
    rfl
  have hdrain := drainLines_eq (d.buffer ++ chunk).length (d.withBuffer (d.buffer ++ chunk)) []
    (Nat.le_refl _)
  rw [feed_withBuffer] at hdrain
  rw [hpush]
  simp only [withBuffer] at hdrain ⊢
  rcases hf : d.feed (splitLines (d.buffer ++ chunk)).1 with ⟨found, detail | d'⟩
  · simpa [hf, Except.map] using hdrain
  · simpa [hf, Except.map] using hdrain

theorem push_fits {d d' : SseDecoder} {chunk : List UInt8} {events : List String}
    (h : d.push chunk = (.ok events, d')) :
    d.buffer.length + chunk.length ≤ maxPendingBytes ∧ d.data.utf8ByteSize ≤ maxPendingBytes := by
  unfold push at h
  simp only at h
  split at h
  · cases h
  · rename_i hfits
    simp only [Bool.or_eq_true, decide_eq_true_eq, List.length_append] at hfits
    omega

theorem Took.push {bytes chunk : List UInt8} {events more : List String} {d d' : SseDecoder}
    (h : Took bytes events d) (hpush : d.push chunk = (.ok more, d')) :
    Took (bytes ++ chunk) (events ++ more) d' := by
  obtain ⟨hbuffer, hdata⟩ := push_fits hpush
  have hfed := push_eq hbuffer hdata
  obtain ⟨hall, hrest⟩ := h.feed chunk
  rcases hf : d.feed (splitLines (d.buffer ++ chunk)).1 with ⟨found, detail | fed⟩
  · rw [hf] at hfed
    rw [hpush] at hfed
    cases hfed
  · rw [hf] at hfed hall
    simp only [hpush] at hfed
    cases hfed
    exact ⟨hall, hrest.symm⟩

theorem Took.pushAll {chunks : List (List UInt8)} {bytes : List UInt8} {events more : List String}
    {d d' : SseDecoder} (h : Took bytes events d) (hpush : d.pushAll chunks = (.ok more, d')) :
    Took (bytes ++ chunks.flatten) (events ++ more) d' := by
  induction chunks generalizing bytes events more d with
  | nil =>
    cases hpush
    simpa using h
  | cons chunk chunks ih =>
    unfold SseDecoder.pushAll at hpush
    split at hpush
    · cases hpush
    · rename_i found d₁ hfirst
      split at hpush
      · cases hpush
      · rename_i later d₂ hrest
        cases hpush
        simpa using ih (h.push hfirst) hrest

end SseDecoder

/-! ### Events as bytes -/

theorem bytesOf_fromUtf8 {bytes : List UInt8} {text : String} (h : fromUtf8 bytes = .ok text) :
    bytesOf text = bytes := by
  unfold fromUtf8 at h
  split at h
  · rename_i found hfound
    cases h
    exact bytesOf_textOf hfound
  · cases h

theorem joinLines_concat (values : List (List UInt8)) (value : List UInt8) :
    joinLines (values ++ [value]) =
      (if values.isEmpty then [] else joinLines values ++ [newline]) ++ value := by
  induction values with
  | nil => rfl
  | cons first rest ih =>
    cases rest with
    | nil => simp [joinLines]
    | cons second rest =>
      simp only [List.cons_append] at ih ⊢
      simp [joinLines, ih]

/-- The data of the decoder are the values held, joined. -/
structure Holds (d : SseDecoder) (held : List (List UInt8)) : Prop where
  flag : d.hasData = !held.isEmpty
  data : bytesOf d.data = joinLines held

theorem holds_default : Holds SseDecoder.default [] := ⟨rfl, rfl⟩

theorem splitField_cons {b : UInt8} (hb : b ≠ colon) (rest : List UInt8) :
    SseDecoder.splitField (b :: rest) =
      (b :: (SseDecoder.splitField rest).1, (SseDecoder.splitField rest).2) := by
  unfold SseDecoder.splitField
  rw [List.findIdx?_cons]
  simp only [hb, decide_false, Bool.false_eq_true, if_false]
  cases rest.findIdx? fun b => decide (b = colon) <;> rfl

theorem splitField_eq (line : List UInt8) :
    SseDecoder.splitField line =
      (line.takeWhile (· ≠ colon),
        match line.dropWhile (· ≠ colon) with
        | [] => []
        | _ :: raw => if raw.head? = some space then raw.tail else raw) := by
  induction line with
  | nil => rfl
  | cons b rest ih =>
    by_cases hb : b = colon
    · simp [SseDecoder.splitField, List.findIdx?_cons, hb]
    · rw [splitField_cons hb, ih]
      simp [hb]

/-- The data after one more value. -/
def joined (d : SseDecoder) (value : String) : SseDecoder :=
  { d with data := (if d.hasData then d.data ++ "\n" else d.data) ++ value, hasData := true }

theorem consume_field (d : SseDecoder) {line : List UInt8} (hline : line.isEmpty = false) :
    d.consume line =
      match dataValue line with
      | none => (.ok none, d)
      | some value =>
        match fromUtf8 value with
        | .error err => (.error s!"a data line was not valid UTF-8: {err}", d)
        | .ok decoded => (.ok none, joined d decoded) := by
  cases line with
  | nil => cases hline
  | cons b rest =>
    unfold SseDecoder.consume dataValue
    rw [splitField_eq]
    by_cases hb : b = colon
    · subst hb
      rfl
    · rw [if_neg (by simp), if_neg (by simpa using hb)]
      dsimp only
      by_cases hname : (b :: rest).takeWhile (· ≠ colon) = dataField
      · rw [if_pos hname, if_neg (not_not.mpr hname)]
        cases (b :: rest).dropWhile (· ≠ colon) <;> rfl
      · rw [if_neg hname, if_pos hname]

theorem Holds.joined {d : SseDecoder} {held : List (List UInt8)} (h : Holds d held)
    {value : List UInt8} {decoded : String} (hdecoded : fromUtf8 value = .ok decoded) :
    Holds (joined d decoded) (held ++ [value]) := by
  refine ⟨by simp [Stream.joined], ?_⟩
  rw [joinLines_concat, Stream.joined, bytesOf_append, bytesOf_fromUtf8 hdecoded, h.flag]
  cases hheld : held.isEmpty with
  | true =>
    obtain rfl := List.isEmpty_iff.mp hheld
    simp [h.data, joinLines]
  | false => simp [bytesOf_append, h.data, show bytesOf "\n" = [newline] from rfl]

theorem consume_nil (d : SseDecoder) :
    d.consume [] =
      if d.hasData then (.ok (some d.data), { d with data := "", hasData := false })
      else (.ok none, d) := rfl

/-- What a line that goes through does: it dispatches the data held, it leaves the decoder as
it is, or its value joins the data. -/
theorem consume_cases {d d' : SseDecoder} {line : List UInt8} {event : Option String}
    (h : d.consume line = (.ok event, d')) :
    (line = [] ∧ d.hasData = true ∧ event = some d.data ∧ d' = { d with data := "", hasData := false }) ∨
    (dataValue line = none ∧ (line = [] → d.hasData = false) ∧ event = none ∧ d' = d) ∨
    ∃ value decoded, dataValue line = some value ∧ fromUtf8 value = .ok decoded ∧ event = none ∧
      d' = joined d decoded := by
  cases hline : line.isEmpty with
  | true =>
    obtain rfl := List.isEmpty_iff.mp hline
    rw [consume_nil] at h
    cases hheld : d.hasData with
    | true =>
      rw [hheld] at h
      cases h
      exact .inl ⟨rfl, rfl, rfl, rfl⟩
    | false =>
      rw [hheld] at h
      cases h
      exact .inr (.inl ⟨by decide, fun _ => rfl, rfl, rfl⟩)
  | false =>
    have hne : line ≠ [] := by simpa using hline
    rw [consume_field d hline] at h
    cases hvalue : dataValue line with
    | none =>
      rw [hvalue] at h
      cases h
      exact .inr (.inl ⟨rfl, fun hnil => absurd hnil hne, rfl, rfl⟩)
    | some value =>
      rw [hvalue] at h
      cases hdecoded : fromUtf8 value with
      | error err =>
        simp only [hdecoded] at h
        cases h
      | ok decoded =>
        simp only [hdecoded] at h
        cases h
        exact .inr (.inr ⟨value, decoded, rfl, hdecoded, rfl, rfl⟩)

/-- A line that is not blank adds its value where it is a data line, and nothing else. -/
theorem consume_holds {d d' : SseDecoder} {line : List UInt8} {event : Option String}
    {held : List (List UInt8)} (h : Holds d held) (hline : line.isEmpty = false)
    (hc : d.consume line = (.ok event, d')) :
    event = none ∧ Holds d' (held ++ (dataValue line).toList) := by
  rcases consume_cases hc with ⟨rfl, -, -, -⟩ | ⟨hvalue, -, rfl, rfl⟩ |
    ⟨value, decoded, hvalue, hdecoded, rfl, rfl⟩
  · cases hline
  · exact ⟨rfl, by simpa [hvalue] using h⟩
  · rw [hvalue]
    exact ⟨rfl, h.joined hdecoded⟩

theorem consume_blank {d d' : SseDecoder} {event : Option String} {held : List (List UInt8)}
    (h : Holds d held) (hc : d.consume [] = (.ok event, d')) :
    event.toList.map bytesOf = (if held.isEmpty then [] else [joinLines held]) ∧ Holds d' [] := by
  rcases consume_cases hc with ⟨-, hdata, rfl, rfl⟩ | ⟨-, hblank, rfl, rfl⟩ | ⟨value, _, hvalue, _⟩
  · have hheld : held.isEmpty = false := by simpa [h.flag] using hdata
    rw [hheld]
    exact ⟨by simp [h.data], rfl, rfl⟩
  · have hheld : held.isEmpty = true := by simpa [h.flag] using hblank rfl
    obtain rfl := List.isEmpty_iff.mp hheld
    exact ⟨rfl, h⟩
  · cases hvalue

theorem feed_dispatch {d d' : SseDecoder} {lines : List (List UInt8)} {events : List String}
    {held : List (List UInt8)} (h : Holds d held) (hfeed : d.feed lines = (events, .ok d')) :
    (dispatch held lines).1 = events.map bytesOf ∧ Holds d' (dispatch held lines).2 := by
  induction lines generalizing d events held with
  | nil =>
    cases hfeed
    exact ⟨rfl, h⟩
  | cons line lines ih =>
    rcases hc : d.consume line with ⟨detail | event, after⟩
    · simp [SseDecoder.feed, hc] at hfeed
    · rw [SseDecoder.feed_cons hc, Prod.mk.injEq] at hfeed
      obtain ⟨rfl, hrest⟩ := hfeed
      cases hline : line.isEmpty with
      | true =>
        obtain rfl := List.isEmpty_iff.mp hline
        obtain ⟨hevent, hafter⟩ := consume_blank h hc
        obtain ⟨hevents, hlast⟩ := ih hafter (Prod.ext rfl hrest)
        rw [List.map_append, hevent, ← hevents]
        cases hheld : held.isEmpty <;> simp [dispatch, hheld, hlast]
      | false =>
        obtain ⟨rfl, hafter⟩ := consume_holds h hline hc
        obtain ⟨hevents, hlast⟩ := ih hafter (Prod.ext rfl hrest)
        simpa [dispatch, hline] using ⟨hevents, hlast⟩

/-- Whatever the chunks: the events returned are those of the whole string, and the decoder
holds a part of an event where the string ends in one. -/
theorem decoder_eq_reference {chunks : List (List UInt8)} {events : List String} {d : SseDecoder}
    (h : SseDecoder.default.pushAll chunks = (.ok events, d)) :
    reference chunks.flatten = ⟨events.map bytesOf, d.hasPartialEvent⟩ := by
  obtain ⟨hfed, hbuffer⟩ := SseDecoder.took_nil.pushAll h
  simp only [List.nil_append] at hfed hbuffer
  obtain ⟨hevents, hheld⟩ := feed_dispatch holds_default hfed
  simp only [reference, hevents, ← hbuffer, SseDecoder.hasPartialEvent]
  rw [show d.hasData = _ from hheld.flag]

/-- Two data lines of one event, cut inside the line ending between them. -/
theorem decoder_eq_reference_cut :
    SseDecoder.default.pushAll
        [[0x64, 0x61, 0x74, 0x61, 0x3a, 0x61, 0x0d],
          [0x0a, 0x64, 0x61, 0x74, 0x61, 0x3a, 0x62, 0x0d, 0x0a, 0x0d, 0x0a, 0x3a]] =
        (.ok ["a\nb"], ⟨[0x3a], "", false⟩) ∧
      reference [0x64, 0x61, 0x74, 0x61, 0x3a, 0x61, 0x0d, 0x0a, 0x64, 0x61, 0x74, 0x61, 0x3a, 0x62,
          0x0d, 0x0a, 0x0d, 0x0a, 0x3a] =
        ⟨[[0x61, 0x0a, 0x62]], true⟩ := by
  have hpush : SseDecoder.default.pushAll
      [[0x64, 0x61, 0x74, 0x61, 0x3a, 0x61, 0x0d],
        [0x0a, 0x64, 0x61, 0x74, 0x61, 0x3a, 0x62, 0x0d, 0x0a, 0x0d, 0x0a, 0x3a]] =
      (.ok ["a\nb"], ⟨[0x3a], "", false⟩) := by rfl
  exact ⟨hpush, decoder_eq_reference hpush⟩

end MehoyRuntime.Stream
