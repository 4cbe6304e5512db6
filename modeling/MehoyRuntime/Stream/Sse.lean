import Mathlib.Data.List.Basic

/-!
# Server-sent event framing

The decoder takes arbitrary runs of bytes and returns the payload of each event they
complete. The loop over complete lines runs on fuel, one unit a byte held, and
`drainLines_fuel` shows that it never runs out.
-/

namespace MehoyRuntime.Stream

/-! ### Text from bytes -/

/-- The first place where bytes stop being UTF-8, and how long the offending sequence
is; no length where the bytes only end too soon. -/
structure Utf8Error where
  validUpTo : ℕ
  errorLen : Option ℕ
  deriving DecidableEq, Repr

def Utf8Error.display (err : Utf8Error) : String :=
  match err.errorLen with
  | some len => s!"invalid utf-8 sequence of {len} bytes from index {err.validUpTo}"
  | none => s!"incomplete utf-8 byte sequence from index {err.validUpTo}"

def isContinuation (b : UInt8) : Bool := 0x80 ≤ b && b ≤ 0xbf

def secondFits (first second : UInt8) : Bool :=
  if first = 0xe0 then 0xa0 ≤ second && second ≤ 0xbf
  else if first = 0xed then 0x80 ≤ second && second ≤ 0x9f
  else if first = 0xf0 then 0x90 ≤ second && second ≤ 0xbf
  else if first = 0xf4 then 0x80 ≤ second && second ≤ 0x8f
  else isContinuation second

/-- How many bytes the sequence a leading byte opens has; none for a stray byte. -/
def charWidth (first : UInt8) : Option ℕ :=
  if first ≤ 0x7f then some 1
  else if 0xc2 ≤ first && first ≤ 0xdf then some 2
  else if 0xe0 ≤ first && first ≤ 0xef then some 3
  else if 0xf0 ≤ first && first ≤ 0xf4 then some 4
  else none

/-- Checks the sequence at the head of `bytes`: its width, or the length of the error. -/
def checkChar : List UInt8 → Except (Option ℕ) ℕ
  | [] => .ok 0
  | first :: rest =>
    match charWidth first, rest with
    | none, _ => .error (some 1)
    | some 1, _ => .ok 1
    | some _, [] => .error none
    | some width, second :: rest' =>
      if !secondFits first second then .error (some 1)
      else if width = 2 then .ok 2
      else
        match rest' with
        | [] => .error none
        | third :: rest'' =>
          if !isContinuation third then .error (some 2)
          else if width = 3 then .ok 3
          else
            match rest'' with
            | [] => .error none
            | fourth :: _ => if isContinuation fourth then .ok 4 else .error (some 3)

/-- The first error at or after `index`; a fuel of the length of `bytes` suffices. -/
def utf8Error : ℕ → ℕ → List UInt8 → Option Utf8Error
  | 0, _, _ => none
  | fuel + 1, index, bytes =>
    match checkChar bytes with
    | .error len => some ⟨index, len⟩
    | .ok 0 => none
    | .ok width => utf8Error fuel (index + width) (bytes.drop width)

/-- `std::str::from_utf8`, with the text of its error. -/
def fromUtf8 (bytes : List UInt8) : Except String String :=
  match String.fromUTF8? ⟨bytes.toArray⟩ with
  | some text => .ok text
  | none => .error (((utf8Error bytes.length 0 bytes).getD ⟨0, none⟩).display)

/-- `String::from_utf8_lossy`: each offending sequence becomes one replacement
character. -/
def fromUtf8Lossy : ℕ → List UInt8 → String
  | 0, _ => ""
  | fuel + 1, bytes =>
    match utf8Error bytes.length 0 bytes with
    | none => (String.fromUTF8? ⟨bytes.toArray⟩).getD ""
    | some err =>
      let valid := (String.fromUTF8? ⟨(bytes.take err.validUpTo).toArray⟩).getD ""
      match err.errorLen with
      | none => valid ++ "\uFFFD"
      | some len => valid ++ "\uFFFD" ++ fromUtf8Lossy fuel (bytes.drop (err.validUpTo + len))

/-! ### The decoder -/

/-- The most that may be held while an event is still incomplete. -/
def maxPendingBytes : ℕ := 8 <<< 20

structure SseDecoder where
  buffer : List UInt8
  data : String
  hasData : Bool
  deriving DecidableEq, Repr

namespace SseDecoder

def default : SseDecoder := ⟨[], "", false⟩

def newline : UInt8 := 0x0a
def carriageReturn : UInt8 := 0x0d
def colon : UInt8 := 0x3a
def space : UInt8 := 0x20

def dataField : List UInt8 := [0x64, 0x61, 0x74, 0x61]

def hasPartialEvent (d : SseDecoder) : Bool := !d.buffer.isEmpty || d.hasData

/-- Where the first complete line of `buffer` ends and what follows it starts. A
carriage return at the very end is not yet known to be a line ending. -/
def lineEnd (buffer : List UInt8) : Option (ℕ × ℕ) :=
  match buffer.findIdx? fun b => b = newline || b = carriageReturn with
  | none => none
  | some index =>
    if buffer[index]? = some carriageReturn then
      match buffer[index + 1]? with
      | none => none
      | some b => if b = newline then some (index, index + 2) else some (index, index + 1)
    else some (index, index + 1)

def takeLine (d : SseDecoder) : Option (List UInt8) × SseDecoder :=
  match lineEnd d.buffer with
  | none => (none, d)
  | some (index, consumed) =>
    (some (d.buffer.take index), { d with buffer := d.buffer.drop consumed })

/-- The name and the value of a field line; one blank after the colon is not part of
the value. -/
def splitField (line : List UInt8) : List UInt8 × List UInt8 :=
  match line.findIdx? fun b => b = colon with
  | none => (line, [])
  | some index =>
    let raw := line.drop (index + 1)
    (line.take index, if raw.head? = some space then raw.tail else raw)

/-- Applies one line, with a payload when the line dispatched an event. -/
def consume (d : SseDecoder) (line : List UInt8) : Except String (Option String) × SseDecoder :=
  if line.isEmpty then
    if d.hasData then (.ok (some d.data), { d with data := "", hasData := false })
    else (.ok none, d)
  else if line.head? = some colon then (.ok none, d)
  else
    let (field, value) := splitField line
    if field ≠ dataField then (.ok none, d)
    else
      match fromUtf8 value with
      | .error err => (.error s!"a data line was not valid UTF-8: {err}", d)
      | .ok decoded =>
        let held := if d.hasData then d.data ++ "\n" else d.data
        (.ok none, { d with data := held ++ decoded, hasData := true })

/-- The loop of `push`, after the events found so far. -/
def drainLines : ℕ → SseDecoder → List String → Except String (List String) × SseDecoder
  | 0, d, events => (.ok events, d)
  | fuel + 1, d, events =>
    match d.takeLine with
    | (none, d') => (.ok events, d')
    | (some line, d') =>
      match d'.consume line with
      | (.error detail, d'') => (.error detail, d'')
      | (.ok none, d'') => drainLines fuel d'' events
      | (.ok (some event), d'') => drainLines fuel d'' (events ++ [event])

def push (d : SseDecoder) (chunk : List UInt8) : Except String (List String) × SseDecoder :=
  let held := { d with buffer := d.buffer ++ chunk }
  if maxPendingBytes < held.buffer.length || maxPendingBytes < held.data.utf8ByteSize then
    (.error s!"a single event exceeded {maxPendingBytes} bytes without ending", held)
  else drainLines held.buffer.length held []

theorem lineEnd_lt {buffer : List UInt8} {index consumed : ℕ}
    (h : lineEnd buffer = some (index, consumed)) : index < consumed ∧ index < buffer.length := by
  unfold lineEnd at h
  split at h
  · cases h
  · rename_i i hi
    have hlt : i < buffer.length := by
      rw [List.findIdx?_eq_some_iff_findIdx_eq] at hi
      exact hi.1
    split at h
    · split at h
      · cases h
      · split at h <;> cases h <;> exact ⟨by omega, hlt⟩
    · cases h
      exact ⟨by omega, hlt⟩

/-- A line leaves the buffer with its ending. -/
theorem takeLine_size {d d' : SseDecoder} {line : List UInt8}
    (h : d.takeLine = (some line, d')) : line.length + 1 + d'.buffer.length ≤ d.buffer.length := by
  unfold takeLine at h
  split at h
  · cases h
  · rename_i index consumed he
    obtain ⟨hlt, hindex⟩ := lineEnd_lt he
    cases h
    simp only [List.length_drop, List.length_take]
    omega

theorem takeLine_length {d d' : SseDecoder} {line : List UInt8}
    (h : d.takeLine = (some line, d')) : d'.buffer.length < d.buffer.length := by
  have hsize := takeLine_size h
  omega

theorem consume_buffer (d : SseDecoder) (line : List UInt8) :
    (d.consume line).2.buffer = d.buffer := by
  unfold consume
  split
  · split <;> rfl
  · split
    · rfl
    · dsimp only
      split
      · rfl
      · split <;> rfl

/-- Fuel beyond the bytes held changes nothing: the loop always ends by itself. -/
theorem drainLines_fuel (fuel extra : ℕ) (d : SseDecoder) (events : List String)
    (h : d.buffer.length ≤ fuel) :
    drainLines (fuel + extra) d events = drainLines fuel d events := by
  induction fuel generalizing d events with
  | zero =>
    have hb : d.buffer = [] := List.length_eq_zero_iff.mp (by omega)
    have ht : d.takeLine = (none, d) := by simp [takeLine, lineEnd, hb]
    cases extra with
    | zero => rfl
    | succ n => simp [drainLines, ht]
  | succ fuel ih =>
    rw [show fuel + 1 + extra = (fuel + extra) + 1 by omega]
    unfold drainLines
    split
    · rfl
    · rename_i line d' ht
      have hlt := takeLine_length ht
      have hbuf := consume_buffer d' line
      split
      · rfl
      · rename_i d'' hc
        rw [hc] at hbuf
        exact ih d'' events (by rw [hbuf]; omega)
      · rename_i event d'' hc
        rw [hc] at hbuf
        exact ih d'' _ (by rw [hbuf]; omega)

end SseDecoder
end MehoyRuntime.Stream
