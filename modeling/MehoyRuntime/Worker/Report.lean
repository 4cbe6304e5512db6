import MehoyRuntime.Lib.Text
import MehoyRuntime.Worker.Log
import Std.Data.String.ToNat

/-!
# Failure reports

What a report of a worker's output says (`WorkerLog::render` and `lines_from` of log.rs,
with the `Display` of a line). `readReport` reads a report back, and on the log of every
reachable capture it finds what the log holds: the text of a line never contains a line
feed, and the line about dropped output begins as no captured line does.
-/

namespace MehoyRuntime.Worker
open TransitionSystem Lines

def LogStream.display : LogStream → String
  | .stdout => "stdout"
  | .stderr => "stderr"

def LogLine.display (line : LogLine) : String := s!"[{line.stream.display}] {line.text}"

namespace WorkerLog

def linesFrom (log : WorkerLog) (stream : LogStream) : List LogLine :=
  log.lines.filter fun line => line.stream = stream

def render (log : WorkerLog) : String :=
  let out := if log.dropped > 0 then s!"... {log.dropped} earlier line(s) dropped ...\n" else ""
  log.lines.foldl (fun out line => out ++ line.display ++ "\n") out

end WorkerLog

/-! ### Reading a report -/

def readDropped (row : List Char) : Option ℕ := do
  let rest ← Text.stripPrefix "... ".toList row
  if rest.dropWhile Char.isDigit = " earlier line(s) dropped ...".toList then
    (String.ofList (rest.takeWhile Char.isDigit)).toNat?
  else none

def readLine (row : List Char) : Option LogLine :=
  match Text.stripPrefix "[stdout] ".toList row with
  | some text => some ⟨.stdout, String.ofList text⟩
  | none => (Text.stripPrefix "[stderr] ".toList row).map fun text => ⟨.stderr, String.ofList text⟩

/-- How many lines were dropped, and the lines that were not. -/
def readReport (report : String) : Option (ℕ × List LogLine) :=
  match (linesOf '\n' report.toList).map List.dropLast with
  | [] => some (0, [])
  | row :: rows =>
    match readDropped row with
    | some dropped => (rows.mapM readLine).map (dropped, ·)
    | none => ((row :: rows).mapM readLine).map (0, ·)

/-- What a line begins with, whichever its text is. -/
def startOf : LogStream → String
  | .stdout => "[stdout] "
  | .stderr => "[stderr] "

theorem display_toList (line : LogLine) :
    line.display.toList = (startOf line.stream).toList ++ line.text.toList := by
  have hstart : "[".toList ++ line.stream.display.toList ++ "] ".toList =
      (startOf line.stream).toList := by
    cases line.stream <;> decide
  rw [← hstart]
  simp only [LogLine.display, toString, String.toList_append]

theorem readLine_display (line : LogLine) : readLine line.display.toList = some line := by
  obtain ⟨stream, text⟩ := line
  rw [display_toList]
  cases stream with
  | stdout =>
    rw [startOf, readLine, Text.stripPrefix_append]
    simp only [String.ofList_toList]
  | stderr =>
    have hother : Text.stripPrefix "[stdout] ".toList ("[stderr] ".toList ++ text.toList) = none :=
      Text.stripPrefix_other (by decide) (by decide) _
    rw [startOf, readLine, hother, Text.stripPrefix_append]
    simp only [Option.map_some, String.ofList_toList]

theorem readDropped_display (line : LogLine) : readDropped line.display.toList = none := by
  have hother : Text.stripPrefix "... ".toList line.display.toList = none := by
    rw [display_toList]
    apply Text.stripPrefix_other
    · cases line.stream <;> decide
    · cases line.stream <;> decide
  rw [readDropped, hother]
  rfl

def droppedRow (dropped : UInt64) : String := s!"... {dropped} earlier line(s) dropped ..."

theorem droppedRow_toList (dropped : UInt64) :
    (droppedRow dropped).toList =
      "... ".toList ++ (Nat.toDigits 10 dropped.toNat ++ " earlier line(s) dropped ...".toList) := by
  have hshown : toString dropped = Nat.repr dropped.toNat := rfl
  rw [droppedRow, hshown]
  simp only [toString, String.toList_append, Nat.toList_repr, List.append_assoc]

theorem readDropped_droppedRow (dropped : UInt64) :
    readDropped (droppedRow dropped).toList = some dropped.toNat := by
  have htake : (" earlier line(s) dropped ...".toList).takeWhile Char.isDigit = [] := by decide
  have hdrop : (" earlier line(s) dropped ...".toList).dropWhile Char.isDigit =
      " earlier line(s) dropped ...".toList := by decide
  rw [droppedRow_toList, readDropped, Text.stripPrefix_append]
  simp only [Option.bind_eq_bind, Option.bind_some, List.takeWhile_append_of_pos Text.digits_isDigit,
    List.dropWhile_append_of_pos Text.digits_isDigit, htake, hdrop, if_true, List.append_nil]
  rw [← Nat.repr_eq_ofList_toDigits]
  exact Nat.toNat?_repr dropped.toNat

/-! ### The rows of a report -/

namespace WorkerLog

def rows (log : WorkerLog) : List (List Char) :=
  (if log.dropped > 0 then [(droppedRow log.dropped).toList] else []) ++
    log.lines.map (·.display.toList)

theorem foldl_display (lines : List LogLine) (out : String) :
    (lines.foldl (fun out line => out ++ line.display ++ "\n") out).toList =
      out.toList ++ (lines.map (·.display.toList)).flatMap (· ++ ['\n']) := by
  induction lines generalizing out with
  | nil => simp
  | cons line lines ih => simp [ih]

theorem render_toList (log : WorkerLog) : log.render.toList = log.rows.flatMap (· ++ ['\n']) := by
  rw [render, foldl_display, rows, List.flatMap_append]
  congr 1
  split
  · have hrow : s!"... {log.dropped} earlier line(s) dropped ...\n" = droppedRow log.dropped ++ "\n" := by
      simp only [droppedRow, toString, String.append_assoc]
      rfl
    rw [hrow]
    simp
  · simp

theorem linefeed_not_mem_rows {log : WorkerLog}
    (h : ∀ line ∈ log.lines, '\n' ∉ line.text.toList) : ∀ row ∈ log.rows, '\n' ∉ row := by
  intro row hrow
  rcases List.mem_append.mp hrow with hrow | hrow
  · split at hrow
    · obtain rfl := List.mem_singleton.mp hrow
      rw [droppedRow_toList]
      intro hmem
      rcases List.mem_append.mp hmem with hmem | hmem
      · exact absurd hmem (by decide)
      rcases List.mem_append.mp hmem with hmem | hmem
      · have hdigit := Text.digits_isDigit _ hmem
        exact absurd hdigit (by decide)
      · exact absurd hmem (by decide)
    · cases hrow
  · obtain ⟨line, hline, rfl⟩ := List.mem_map.mp hrow
    rw [display_toList]
    intro hmem
    rcases List.mem_append.mp hmem with hmem | hmem
    · revert hmem
      cases line.stream <;> decide
    · exact h line hline hmem

theorem readReport_render {log : WorkerLog} (h : ∀ line ∈ log.lines, '\n' ∉ line.text.toList) :
    readReport log.render = some (log.dropped.toNat, log.lines) := by
  have hrows : (linesOf '\n' log.render.toList).map List.dropLast = log.rows := by
    rw [render_toList, linesOf_terminated (linefeed_not_mem_rows h), List.map_map]
    exact (List.map_congr_left fun row _ => List.dropLast_concat).trans (List.map_id _)
  have hlines : (log.lines.map (·.display.toList)).mapM readLine = some log.lines :=
    Text.mapM_map_some readLine_display log.lines
  unfold readReport
  rw [hrows, rows]
  by_cases hdropped : log.dropped > 0
  · rw [if_pos hdropped, List.singleton_append]
    simp only [readDropped_droppedRow, hlines, Option.map_some]
  · have hzero : log.dropped = 0 := by
      have hle : log.dropped ≤ 0 := UInt64.not_lt.mp hdropped
      simpa using hle
    rw [if_neg hdropped, List.nil_append, hzero]
    cases hlog : log.lines with
    | nil => rfl
    | cons line lines =>
      rw [hlog, List.map_cons] at hlines
      simp only [List.map_cons, readDropped_display, hlines, Option.map_some]
      rfl

end WorkerLog

/-! ### What is captured is a line each -/

theorem not_mem_front {text front tail : List Char}
    (hlast : ∀ before after, text = before ++ '\n' :: after → after = [])
    (h : text = front ++ tail) (htail : tail ≠ []) : '\n' ∉ front := by
  intro hmem
  obtain ⟨before, after, rfl⟩ := List.append_of_mem hmem
  have hafter := hlast before (after ++ tail) (by simp [h])
  exact htail (List.append_eq_nil_iff.mp hafter).2

theorem chomp_linefeed {full : String}
    (hlast : ∀ before after, full.toList = before ++ '\n' :: after → after = []) :
    '\n' ∉ (chomp full).toList := by
  unfold chomp
  split
  · rename_i rest heq
    have hfull : full.toList = rest.reverse ++ ['\r', '\n'] := by
      rw [← List.reverse_reverse full.toList, heq]
      simp
    simpa using not_mem_front hlast hfull (by simp)
  · rename_i rest _ heq
    have hfull : full.toList = rest.reverse ++ ['\n'] := by
      rw [← List.reverse_reverse full.toList, heq]
      simp
    simpa using not_mem_front hlast hfull (by simp)
  · rename_i _ hend
    intro hmem
    obtain ⟨before, after, hsplit⟩ := List.append_of_mem hmem
    obtain rfl := hlast before after hsplit
    exact hend before.reverse (by simp [hsplit])

theorem lineText_linefeed {line : List UInt8} {output : List UInt8} {text : String}
    (hline : line ∈ linesOf newline output) (htext : lineText line = .ok text) :
    '\n' ∉ text.toList := by
  cases hfull : Utf8.textOf line with
  | none => simp [lineText, hfull] at htext
  | some full =>
    obtain rfl : chomp full = text := by simpa [lineText, hfull] using htext
    -- The byte of a line feed is in the line only where it ends.
    have hlast : ∀ before after, full.toList = before ++ '\n' :: after → after = [] := by
      intro before after hsplit
      have hfull' : full = String.ofList before ++ "\n" ++ String.ofList after := by
        apply String.toList_injective
        simp [hsplit]
      have hbytes : line = Utf8.bytesOf (String.ofList before) ++
          newline :: Utf8.bytesOf (String.ofList after) := by
        rw [← Utf8.bytesOf_textOf hfull, hfull', Utf8.bytesOf_append, Utf8.bytesOf_append]
        simp [show Utf8.bytesOf "\n" = [newline] from by decide]
      have hempty := separator_last hline hbytes
      have hafter : String.ofList after = "" := Utf8.bytesOf_injective (hempty.trans (by decide))
      simpa using congrArg String.toList hafter
    exact chomp_linefeed hlast

namespace Capture
variable {room : ℕ+} {capacity : ℕ} {output : LogStream → List UInt8} {c : Capture}

theorem recorded_linefeed (h : Accounted capacity output c) :
    ∀ line ∈ c.recorded, '\n' ∉ line.text.toList := by
  intro line hline
  have hfrom : line.text ∈ c.textsFrom line.stream := by
    apply List.mem_map_of_mem
    simp [hline]
  have htexts : .ok line.text ∈ textsOf (output line.stream) := by
    rw [h.texts line.stream]
    exact List.mem_append_left _ (List.mem_map_of_mem hfrom)
  obtain ⟨bytes, hbytes, htext⟩ := List.mem_map.mp htexts
  exact lineText_linefeed hbytes htext

theorem linesFrom_suffix (h : Accounted capacity output c) (stream : LogStream) :
    (c.log.linesFrom stream).map (·.text) <:+ c.textsFrom stream := by
  have hsuffix : c.log.lines <:+ c.recorded := by
    rw [h.retained]
    exact List.drop_suffix _ _
  exact (hsuffix.filter _).map _

/-- A report says how much output was dropped, and otherwise is the latest output. -/
theorem reports_read_back (h : Reachable (system room capacity output) c) :
    readReport c.log.render = some (c.log.dropped.toNat, c.log.lines) ∧
    c.log.lines = c.recorded.rtake (max capacity 1) ∧
    (c.recorded.length < 2 ^ 64 → c.log.dropped.toNat + c.log.lines.length = c.recorded.length) ∧
    ∀ stream, (c.log.linesFrom stream).map (·.text) <:+ c.textsFrom stream := by
  have haccounted := accounted h
  have hretained := haccounted.retained
  refine ⟨?_, ?_, ?_, linesFrom_suffix haccounted⟩
  · apply WorkerLog.readReport_render
    intro line hline
    apply recorded_linefeed haccounted
    rw [hretained] at hline
    exact List.mem_of_mem_drop hline
  · rw [← haccounted.room]
    exact hretained
  · intro hcount
    have hlines : c.log.lines.length ≤ c.recorded.length := by
      rw [hretained, List.rtake, List.length_drop]
      omega
    have htotal : c.log.total.toNat = c.recorded.length := by
      rw [haccounted.total]
      omega
    rw [WorkerLog.dropped, htotal, Word.ofNat_toNat_of_lt (by omega)]
    omega

def threeLines : LogStream → List UInt8
  | .stdout => [0x41, 0x0d, 0x0a, 0x42]
  | .stderr => [0x43, 0x0a]

/-- Two of three lines are left, and the report of them says that one was dropped. -/
theorem reports_read_back_dropped :
    ∃ c : Capture, c.recorded.length = 3 ∧
      readReport c.log.render = some (1, [⟨.stderr, "C"⟩, ⟨.stdout, "B"⟩]) := by
  obtain ⟨c, hrun, hrecorded, hlines, hdropped⟩ : ∃ c : Capture,
      (system 16 2 threeLines).run (spawned 2 threeLines)
        [.write .stdout 4, .read .stdout 4, .turn .stdout, .write .stderr 2, .read .stderr 2,
          .turn .stderr, .turn .stdout] = some c ∧ c.recorded.length = 3 ∧
      c.log.lines = [⟨.stderr, "C"⟩, ⟨.stdout, "B"⟩] ∧ c.log.dropped = 1 :=
    ⟨_, rfl, rfl, rfl, rfl⟩
  have hread := (reports_read_back (reachable_of_run (.init rfl) hrun)).1
  rw [hlines, hdropped] at hread
  exact ⟨c, hrecorded, hread⟩

end Capture
end MehoyRuntime.Worker
