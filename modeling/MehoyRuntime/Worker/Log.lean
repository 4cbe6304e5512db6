import MehoyRuntime.Lib.Lines
import MehoyRuntime.Lib.System
import MehoyRuntime.Lib.Utf8
import MehoyRuntime.Lib.Word
import MehoyRuntime.Worker.State
import Mathlib.Data.List.DropRight
import Mathlib.Data.PNat.Basic

/-!
# Captured output

The log of a worker, and the two tasks that drain its standard output and its standard error
into it. The worker writes into pipes of bounded size, and what one read delivers is any part
of what is in the pipe.
-/

namespace MehoyRuntime.Worker
open TransitionSystem Lines

inductive LogStream
  | stdout
  | stderr
  deriving DecidableEq, Repr

structure LogLine where
  stream : LogStream
  text : String
  deriving DecidableEq

/-- `total` counts everything ever recorded, including lines already dropped. -/
structure WorkerLog where
  capacity : ℕ
  lines : List LogLine
  total : UInt64
  positive : 0 < capacity
  bounded : lines.length ≤ capacity

namespace WorkerLog

/-- A capacity of zero is raised to one. -/
def withCapacity (capacity : ℕ) : WorkerLog :=
  ⟨max capacity 1, [], 0, by omega, Nat.zero_le _⟩

def push (log : WorkerLog) (line : LogLine) : WorkerLog where
  capacity := log.capacity
  lines := (if log.lines.length = log.capacity then log.lines.tail else log.lines) ++ [line]
  total := Word.saturatingAdd log.total 1
  positive := log.positive
  bounded := by
    have hpositive := log.positive
    have hbounded := log.bounded
    split <;> simp only [List.length_append, List.length_tail, List.length_singleton] <;> omega

def totalRecorded (log : WorkerLog) : UInt64 := log.total

def dropped (log : WorkerLog) : UInt64 :=
  UInt64.ofNat (log.total.toNat - log.lines.length)

end WorkerLog

/-! ### Reading one stream -/

def newline : UInt8 := 10

/-- A line feed at the end goes, with the carriage return before it. -/
def chomp (text : String) : String :=
  match text.toList.reverse with
  | '\n' :: '\r' :: rest => String.ofList rest.reverse
  | '\n' :: rest => String.ofList rest.reverse
  | _ => text

def lineText (line : List UInt8) : Except IoError String :=
  match Utf8.textOf line with
  | some text => .ok (chomp text)
  | none => .error "stream did not contain valid UTF-8"

/-- What the lines of a stream are, each as it is recorded or the error it gives. -/
def textsOf (output : List UInt8) : List (Except IoError String) :=
  (linesOf newline output).map lineText

/-- One stream: what the worker has yet to write, what is in the pipe, and what the reader of
the task holds. -/
structure Drain where
  unwritten : List UInt8
  pipe : List UInt8
  buffer : List UInt8
  ended : Bool

namespace Drain

/-- The worker writes as much as there is room for; it waits where the pipe is full. -/
def write (room : ℕ+) (n : ℕ) (d : Drain) : Option Drain :=
  if d.ended = false ∧ 0 < n ∧ n ≤ d.unwritten.length ∧ d.pipe.length + n ≤ room then
    some { d with unwritten := d.unwritten.drop n, pipe := d.pipe ++ d.unwritten.take n }
  else none

/-- The reader is read from once it holds no whole line. -/
def read (n : ℕ) (d : Drain) : Option Drain :=
  if d.ended = false ∧ (splitLine newline d.buffer).isNone ∧ 0 < n ∧ n ≤ d.pipe.length then
    some { d with pipe := d.pipe.drop n, buffer := d.buffer ++ d.pipe.take n }
  else none

/-- `Lines::next_line`, which waits where there is neither a whole line nor the end of the file. -/
def nextLine (d : Drain) : Option (Except IoError (Option String) × List UInt8) :=
  match splitLine newline d.buffer with
  | some (line, rest) => some ((lineText line).map some, rest)
  | none =>
    if d.pipe.isEmpty && d.unwritten.isEmpty then
      if d.buffer.isEmpty then some (.ok none, []) else some ((lineText d.buffer).map some, [])
    else none

/-- One turn of `drain`: the line it records, where the loop goes on. -/
def turn (d : Drain) : Option (Option String × Drain) :=
  if d.ended then none
  else d.nextLine.map fun (result, rest) =>
    match result with
    | .ok (some text) => (some text, { d with buffer := rest })
    | .ok none | .error _ => (none, { d with ended := true })

end Drain

/-! ### A worker's output -/

/-- The log of one worker and the tasks that fill it; `recorded` is all that ever went in. -/
structure Capture where
  log : WorkerLog
  recorded : List LogLine
  drains : LogStream → Drain

inductive CaptureAction
  | write (stream : LogStream) (n : ℕ)
  | read (stream : LogStream) (n : ℕ)
  | turn (stream : LogStream)

namespace Capture

def spawned (capacity : ℕ) (output : LogStream → List UInt8) : Capture :=
  ⟨.withCapacity capacity, [], fun stream => ⟨output stream, [], [], false⟩⟩

def put (c : Capture) (stream : LogStream) (d : Drain) : Capture :=
  { c with drains := Function.update c.drains stream d }

def record (c : Capture) (line : LogLine) : Capture :=
  { c with log := c.log.push line, recorded := c.recorded ++ [line] }

def recordFrom (c : Capture) (stream : LogStream) : Option String → Capture
  | some text => c.record ⟨stream, text⟩
  | none => c

def step (room : ℕ+) (c : Capture) : CaptureAction → Option Capture
  | .write stream n => ((c.drains stream).write room n).map (c.put stream)
  | .read stream n => ((c.drains stream).read n).map (c.put stream)
  | .turn stream => (c.drains stream).turn.map fun (text, d) => (c.recordFrom stream text).put stream d

def system (room : ℕ+) (capacity : ℕ) (output : LogStream → List UInt8) :
    System Capture CaptureAction where
  init c := c = spawned capacity output
  step := step room

def textsFrom (c : Capture) (stream : LogStream) : List String :=
  (c.recorded.filter fun line => line.stream = stream).map (·.text)

end Capture

/-! ### One step of a drain -/

namespace Drain
variable {room : ℕ+} {d d' : Drain} {n : ℕ} {text : Option String}

/-- What the worker's output still holds that has not been recorded. -/
def held (d : Drain) : List UInt8 := d.buffer ++ d.pipe ++ d.unwritten

def due (d : Drain) : List (Except IoError String) := textsOf d.held

def effort (d : Drain) : ℕ :=
  3 * d.unwritten.length + 2 * d.pipe.length + d.buffer.length + if d.ended then 0 else 1

/-- What a step can do to a drain: move bytes, record the next line, or end the loop, at the
end of the file or at a line that is not text. -/
inductive Effect (d : Drain) : Option String → Drain → Prop
  | moved (d' : Drain) : d'.held = d.held → d'.ended = false → d'.effort < d.effort → Effect d none d'
  | recorded (text : String) (d' : Drain) : d.due = .ok text :: d'.due → d'.ended = false →
      d'.effort < d.effort → Effect d (some text) d'
  | ended : d.ended = false → (d.held = [] ∨ ∃ err, .error err ∈ d.due) →
      Effect d none { d with ended := true }

theorem write_effect (h : d.write room n = some d') : Effect d none d' := by
  unfold write at h
  split at h
  · rename_i hguard
    obtain ⟨hended, hn, hlength, -⟩ := hguard
    cases h
    refine .moved _ ?_ hended ?_
    · simp only [held, List.append_assoc, List.take_append_drop]
    · simp only [effort, List.length_drop, List.length_append, List.length_take]
      omega
  · cases h

theorem read_effect (h : d.read n = some d') : Effect d none d' := by
  unfold read at h
  split at h
  · rename_i hguard
    obtain ⟨hended, -, hn, hlength⟩ := hguard
    cases h
    refine .moved _ ?_ hended ?_
    · simp only [held, List.append_assoc]
      rw [← List.append_assoc (d.pipe.take n), List.take_append_drop]
    · simp only [effort, List.length_drop, List.length_append, List.length_take]
      omega
  · cases h

theorem due_split {line rest : List UInt8} (h : splitLine newline d.buffer = some (line, rest)) :
    d.due = lineText line :: { d with buffer := rest }.due := by
  simp only [due, held, textsOf, List.append_assoc, linesOf_split h, List.map_cons]

theorem due_unsplit (h : splitLine newline d.buffer = none) (hbuffer : d.buffer ≠ [])
    (hpipe : d.pipe = []) (hunwritten : d.unwritten = []) :
    d.due = lineText d.buffer :: { d with buffer := [] }.due := by
  simp only [due, held, textsOf, hpipe, hunwritten, List.append_nil, linesOf_unsplit h hbuffer,
    List.map_cons, linesOf, List.map_nil]

theorem nextLine_cases {result : Except IoError (Option String)} {rest : List UInt8}
    (h : d.nextLine = some (result, rest)) :
    (∃ line, result = (lineText line).map some ∧
      d.due = lineText line :: { d with buffer := rest }.due ∧ rest.length < d.buffer.length) ∨
    (result = .ok none ∧ d.held = []) := by
  unfold nextLine at h
  split at h
  · rename_i line after hsplit
    cases h
    obtain ⟨hbuffer, hline⟩ := splitLine_append hsplit
    have hpos := List.length_pos_iff.mpr hline
    refine .inl ⟨line, rfl, due_split hsplit, ?_⟩
    rw [hbuffer, List.length_append]
    omega
  · rename_i hsplit
    split at h
    · rename_i hend
      simp only [Bool.and_eq_true, List.isEmpty_iff] at hend
      split at h
      · rename_i hbuffer
        cases h
        exact .inr ⟨rfl, by simp only [held, List.isEmpty_iff.mp hbuffer, hend, List.append_nil]⟩
      · rename_i hbuffer
        cases h
        rw [List.isEmpty_iff] at hbuffer
        have hdue := due_unsplit hsplit hbuffer hend.1 hend.2
        exact .inl ⟨d.buffer, rfl, hdue, List.length_pos_iff.mpr hbuffer⟩
    · cases h

theorem turn_effect (h : d.turn = some (text, d')) : Effect d text d' := by
  unfold turn at h
  split at h
  · cases h
  · rename_i hended
    have hended := Bool.eq_false_iff.mpr hended
    obtain ⟨⟨result, rest⟩, hnext, hturn⟩ := Option.map_eq_some_iff.mp h
    rcases nextLine_cases hnext with ⟨line, rfl, hdue, hrest⟩ | ⟨rfl, hheld⟩
    · cases hline : lineText line with
      | error err =>
        rw [hline] at hturn hdue
        cases hturn
        exact .ended hended (.inr ⟨err, hdue ▸ List.mem_cons_self⟩)
      | ok first =>
        rw [hline] at hturn hdue
        cases hturn
        refine .recorded _ _ hdue hended ?_
        simp only [effort]
        omega
    · cases hturn
      exact .ended hended (.inl hheld)

theorem effort_effect (h : Effect d text d') : d'.effort < d.effort := by
  cases h with
  | moved _ _ _ hless => exact hless
  | recorded _ _ _ _ hless => exact hless
  | ended hended _ => simp [effort, hended]

/-- A drain that goes on can always take a step, or the worker can. -/
theorem ended_of_stuck (hwrite : ∀ n, d.write room n = none) (hread : ∀ n, d.read n = none)
    (hturn : d.turn = none) : d.ended = true := by
  by_contra hended
  simp only [turn, if_neg hended, Option.map_eq_none_iff, nextLine] at hturn
  split at hturn
  · cases hturn
  · rename_i hsplit
    split at hturn
    · split at hturn <;> cases hturn
    · rename_i hmore
      cases hpipe : d.pipe with
      | cons b bytes =>
        have hone := hread 1
        simp [read, hended, hsplit, hpipe] at hone
      | nil =>
        have hunwritten : 0 < d.unwritten.length := by
          simpa [hpipe, List.length_pos_iff] using hmore
        have hfits : d.pipe.length + 1 ≤ room := by
          have hroom := room.pos
          rw [hpipe, List.length_nil]
          omega
        have hone := hwrite 1
        rw [write, if_pos ⟨Bool.eq_false_iff.mpr hended, Nat.one_pos, hunwritten, hfits⟩] at hone
        cases hone

end Drain

/-! ### All of the output -/

namespace Capture
variable {room : ℕ+} {capacity : ℕ} {output : LogStream → List UInt8} {c c' : Capture}

theorem step_effect {action : CaptureAction} (h : step room c action = some c') :
    ∃ stream text d, Drain.Effect (c.drains stream) text d ∧
      c' = (c.recordFrom stream text).put stream d := by
  cases action with
  | write stream n =>
    obtain ⟨d, hd, rfl⟩ := Option.map_eq_some_iff.mp h
    exact ⟨stream, none, d, Drain.write_effect hd, rfl⟩
  | read stream n =>
    obtain ⟨d, hd, rfl⟩ := Option.map_eq_some_iff.mp h
    exact ⟨stream, none, d, Drain.read_effect hd, rfl⟩
  | turn stream =>
    obtain ⟨⟨text, d⟩, hd, rfl⟩ := Option.map_eq_some_iff.mp h
    exact ⟨stream, text, d, Drain.turn_effect hd, rfl⟩

def effort (c : Capture) : ℕ := (c.drains .stdout).effort + (c.drains .stderr).effort

@[simp] theorem recordFrom_drains (c : Capture) (stream : LogStream) (text : Option String) :
    (c.recordFrom stream text).drains = c.drains := by
  cases text <;> rfl

@[simp] theorem put_drains (c : Capture) (stream : LogStream) (d : Drain) :
    (c.put stream d).drains = Function.update c.drains stream d := rfl

theorem effort_step {action : CaptureAction} (h : step room c action = some c') :
    c'.effort < c.effort := by
  obtain ⟨stream, text, d, heffect, rfl⟩ := step_effect h
  have hless := Drain.effort_effect heffect
  cases stream <;> simp [effort] <;> omega

theorem textsFrom_record (c : Capture) (stream other : LogStream) (text : String) :
    (c.record ⟨stream, text⟩).textsFrom other =
      if stream = other then c.textsFrom other ++ [text] else c.textsFrom other := by
  unfold textsFrom record
  split <;> simp [*]

/-- What is recorded, and what is in the log of it, at any time. -/
structure Accounted (capacity : ℕ) (output : LogStream → List UInt8) (c : Capture) : Prop where
  texts : ∀ stream, textsOf (output stream) = (c.textsFrom stream).map .ok ++ (c.drains stream).due
  ended : ∀ stream, (c.drains stream).ended = true →
    (c.drains stream).held = [] ∨ ∃ err, .error err ∈ (c.drains stream).due
  room : c.log.capacity = max capacity 1
  retained : c.log.lines = c.recorded.rtake c.log.capacity
  total : c.log.total.toNat = min c.recorded.length (2 ^ 64 - 1)

theorem accounted_spawned : Accounted capacity output (spawned capacity output) where
  texts := fun stream => by simp [spawned, textsFrom, Drain.due, Drain.held]
  ended := fun stream hended => by cases hended
  room := rfl
  retained := by simp [spawned, WorkerLog.withCapacity]
  total := rfl

/-- Popping the front of a full log keeps the latest lines in it. -/
theorem rtake_push {α : Type} {capacity : ℕ} (hcapacity : 0 < capacity) (l : List α) (x : α) :
    (if (l.rtake capacity).length = capacity then (l.rtake capacity).tail else l.rtake capacity) ++ [x] =
      (l ++ [x]).rtake capacity := by
  obtain ⟨n, rfl⟩ := Nat.exists_eq_succ_of_ne_zero hcapacity.ne'
  rw [Nat.succ_eq_add_one, List.rtake_concat_succ]
  congr 1
  simp only [List.rtake, List.length_drop]
  split
  · rename_i hfull
    rw [List.tail_drop, show l.length - (n + 1) + 1 = l.length - n by omega]
  · rename_i hroom
    rw [show l.length - (n + 1) = l.length - n by omega]

theorem accounted_record {stream : LogStream} {text : String} {d : Drain} (h : Accounted capacity output c)
    (hdue : (c.drains stream).due = .ok text :: d.due) (hended : d.ended = false) :
    Accounted capacity output ((c.record ⟨stream, text⟩).put stream d) where
  texts := by
    intro other
    have htexts := h.texts other
    show _ = ((c.record ⟨stream, text⟩).textsFrom other).map .ok ++
      (Function.update c.drains stream d other).due
    rw [textsFrom_record, Function.update_apply]
    by_cases hother : stream = other
    · subst hother
      simp [htexts, hdue]
    · rw [if_neg hother, if_neg (Ne.symm hother), htexts]
  ended := by
    intro other hother
    simp only [put_drains, Function.update_apply] at hother ⊢
    split at hother
    · rw [hended] at hother
      cases hother
    · rename_i hne
      rw [if_neg hne]
      exact h.ended other hother
  room := h.room
  retained := by
    show (c.log.push _).lines = (c.recorded ++ [_]).rtake c.log.capacity
    rw [← rtake_push c.log.positive, ← h.retained]
    rfl
  total := by
    show (Word.saturatingAdd c.log.total 1).toNat = min (c.recorded ++ [_]).length _
    rw [Word.saturatingAdd_toNat, h.total, List.length_append]
    simp only [List.length_singleton, UInt64.toNat_one]
    omega

theorem accounted_put {stream : LogStream} {d : Drain} (h : Accounted capacity output c)
    (hdue : d.due = (c.drains stream).due)
    (hended : d.ended = true → d.held = [] ∨ ∃ err, .error err ∈ d.due) :
    Accounted capacity output (c.put stream d) where
  texts := by
    intro other
    have htexts := h.texts other
    show _ = (c.textsFrom other).map .ok ++ (Function.update c.drains stream d other).due
    rw [Function.update_apply]
    split
    · rename_i hother
      rw [htexts, hdue, hother]
    · exact htexts
  ended := by
    intro other hother
    simp only [put_drains, Function.update_apply] at hother ⊢
    split at hother
    · rename_i heq
      rw [if_pos heq]
      exact hended hother
    · rename_i hne
      rw [if_neg hne]
      exact h.ended other hother
  room := h.room
  retained := h.retained
  total := h.total

theorem accounted_step {action : CaptureAction} (h : Accounted capacity output c)
    (hst : step room c action = some c') : Accounted capacity output c' := by
  obtain ⟨stream, text, d, heffect, rfl⟩ := step_effect hst
  cases heffect with
  | moved _ hheld hended _ =>
    refine accounted_put h (congrArg textsOf hheld) fun hd => ?_
    rw [hended] at hd
    cases hd
  | recorded text _ hdue hended _ => exact accounted_record h hdue hended
  | ended _ hend => exact accounted_put h rfl fun _ => hend

theorem accounted (hc : Reachable (system room capacity output) c) : Accounted capacity output c := by
  refine hc.invariant ?_ fun c c' action _ h _ hst => ?_
  · rintro _ rfl
    exact accounted_spawned
  · exact accounted_step h (show step room c action = some c' from hst)

/-- What the log holds is the end of what was recorded, in the order of each stream, and
where neither the worker nor its drains can go on, all of the output has been recorded. -/
structure Drained (room : ℕ+) (capacity : ℕ) (output : LogStream → List UInt8) (c : Capture) :
    Prop where
  order : ∀ stream, (c.textsFrom stream).map .ok <+: textsOf (output stream)
  total : c.log.totalRecorded.toNat = c.recorded.length
  retained : c.log.lines = c.recorded.rtake (min (max capacity 1) c.log.totalRecorded.toNat)
  dropped : c.log.dropped.toNat + c.log.lines.length = c.recorded.length
  complete : (∀ action, step room c action = none) → ∀ stream,
    (c.drains stream).held = [] ∧ (c.textsFrom stream).map .ok = textsOf (output stream)

/-- Every line of both streams is text, and there are fewer of them than the counter of the
log can count. -/
def Countable (output : LogStream → List UInt8) : Prop :=
  (∀ stream, ∀ line ∈ linesOf newline (output stream), (Utf8.textOf line).isSome) ∧
    (linesOf newline (output .stdout)).length + (linesOf newline (output .stderr)).length < 2 ^ 64

theorem recorded_length (c : Capture) :
    c.recorded.length = (c.textsFrom .stdout).length + (c.textsFrom .stderr).length := by
  simp only [textsFrom, List.length_map]
  induction c.recorded with
  | nil => rfl
  | cons line lines ih =>
    obtain ⟨stream, text⟩ := line
    cases stream <;> simp [ih] <;> omega

theorem textsOf_length (bytes : List UInt8) : (textsOf bytes).length = (linesOf newline bytes).length :=
  List.length_map _

theorem lineText_ok {line : List UInt8} :
    (∃ text, lineText line = .ok text) ↔ (Utf8.textOf line).isSome := by
  unfold lineText
  cases Utf8.textOf line <;> simp

theorem ended_of_stuck (hstuck : ∀ action, step room c action = none) (stream : LogStream) :
    (c.drains stream).ended = true := by
  have hwrite (n : ℕ) : (c.drains stream).write room n = none :=
    Option.map_eq_none_iff.mp (hstuck (.write stream n))
  have hread (n : ℕ) : (c.drains stream).read n = none :=
    Option.map_eq_none_iff.mp (hstuck (.read stream n))
  exact Drain.ended_of_stuck hwrite hread (Option.map_eq_none_iff.mp (hstuck (.turn stream)))

theorem stuck_of_ended (hended : ∀ stream, (c.drains stream).ended = true) (action : CaptureAction) :
    step room c action = none := by
  cases action with
  | write stream n => simp [step, Drain.write, hended stream]
  | read stream n => simp [step, Drain.read, hended stream]
  | turn stream => simp [step, Drain.turn, hended stream]

theorem recorded_le (h : Accounted capacity output c) :
    c.recorded.length ≤
      (linesOf newline (output .stdout)).length + (linesOf newline (output .stderr)).length := by
  have hle (stream : LogStream) :
      (c.textsFrom stream).length ≤ (linesOf newline (output stream)).length := by
    rw [← textsOf_length, h.texts stream, List.length_append, List.length_map]
    omega
  have hout := hle .stdout
  have herr := hle .stderr
  rw [recorded_length]
  omega

theorem complete_of_countable (h : Accounted capacity output c) (houtput : Countable output)
    {stream : LogStream} (hended : (c.drains stream).ended = true) :
    (c.drains stream).held = [] ∧ (c.textsFrom stream).map .ok = textsOf (output stream) := by
  rcases h.ended stream hended with hheld | ⟨err, herr⟩
  · refine ⟨hheld, ?_⟩
    rw [h.texts stream, Drain.due, hheld]
    simp [textsOf, linesOf]
  · have hmem : .error err ∈ textsOf (output stream) := by
      rw [h.texts stream]
      exact List.mem_append_right _ herr
    obtain ⟨line, hline, hlineText⟩ := List.mem_map.mp hmem
    obtain ⟨text, htext⟩ := lineText_ok.mpr (houtput.1 stream line hline)
    rw [htext] at hlineText
    cases hlineText

theorem drained_of_countable (h : Accounted capacity output c) (houtput : Countable output) :
    Drained room capacity output c := by
  have hrecorded := (recorded_le h).trans_lt houtput.2
  have htotal : c.log.totalRecorded.toNat = c.recorded.length := by
    rw [WorkerLog.totalRecorded, h.total]
    omega
  have hlines : c.log.lines.length ≤ c.recorded.length := by
    rw [h.retained, List.rtake, List.length_drop]
    omega
  refine ⟨fun stream => ⟨_, (h.texts stream).symm⟩, htotal, ?_, ?_, fun hstuck stream => ?_⟩
  · rw [h.retained, h.room, htotal, List.rtake, List.rtake]
    congr 1
    omega
  · rw [WorkerLog.totalRecorded] at htotal
    rw [WorkerLog.dropped, htotal, Word.ofNat_toNat_of_lt (by omega)]
    omega
  · exact complete_of_countable h houtput (ended_of_stuck hstuck stream)

theorem countable_of_drained (hstuck : ∀ action, step room c action = none)
    (h : Drained room capacity output c) : Countable output := by
  have htexts (stream : LogStream) := (h.complete hstuck stream).2
  have hcount (stream : LogStream) :
      (linesOf newline (output stream)).length = (c.textsFrom stream).length := by
    rw [← textsOf_length, ← htexts stream, List.length_map]
  refine ⟨fun stream line hline => ?_, ?_⟩
  · have hmem : lineText line ∈ textsOf (output stream) := List.mem_map_of_mem hline
    rw [← htexts stream] at hmem
    obtain ⟨text, -, htext⟩ := List.mem_map.mp hmem
    exact lineText_ok.mp ⟨text, htext.symm⟩
  · rw [hcount, hcount, ← recorded_length, ← h.total]
    exact UInt64.toNat_lt _

/-- No run of a worker and its drains goes on forever, and every one records all of the output
exactly where all of it is text and can be counted. -/
theorem drained_exactly (room : ℕ+) (capacity : ℕ) (output : LogStream → List UInt8) :
    (∀ actions c, (system room capacity output).run (spawned capacity output) actions = some c →
      actions.length ≤ 3 * ((output .stdout).length + (output .stderr).length) + 2) ∧
    ((∀ c, Reachable (system room capacity output) c → Drained room capacity output c) ↔
      Countable output) := by
  have hdown (c c' : Capture) (action : CaptureAction)
      (hst : (system room capacity output).step c action = some c') : c'.effort < c.effort :=
    effort_step hst
  refine ⟨fun actions c hrun => ?_, fun hdrained => ?_, fun houtput c hc => ?_⟩
  · have hlength := run_length_le hdown hrun
    have hstart : (spawned capacity output).effort =
        3 * ((output .stdout).length + (output .stderr).length) + 2 := by
      simp [effort, Drain.effort, spawned]
      omega
    omega
  · obtain ⟨c, hsteps, hstuck⟩ := exists_stuck hdown (spawned capacity output)
    exact countable_of_drained hstuck (hdrained c (hsteps.reachable (.init rfl)))
  · exact drained_of_countable (accounted hc) houtput

def sampleOutput : LogStream → List UInt8
  | .stdout => [0xff, 0x0a, 0x41, 0x0a]
  | .stderr => []

/-- The loop ends at the first line, and the second is never recorded. -/
theorem drained_undecodable :
    ¬ ∀ room capacity output c, Reachable (system room capacity output) c →
      Drained room capacity output c := by
  intro hclaim
  obtain ⟨c, hrun, hheld, hended⟩ : ∃ c, (system 65536 512 sampleOutput).run (spawned 512 sampleOutput)
      [.write .stdout 4, .read .stdout 4, .turn .stdout, .turn .stderr] = some c ∧
        (c.drains .stdout).held ≠ [] ∧ ∀ stream, (c.drains stream).ended = true :=
    ⟨_, rfl, List.cons_ne_nil _ _, fun stream => by cases stream <;> rfl⟩
  have hdrained := hclaim 65536 512 sampleOutput c (reachable_of_run (.init rfl) hrun)
  exact hheld (hdrained.complete (stuck_of_ended hended) .stdout).1

end Capture
end MehoyRuntime.Worker
