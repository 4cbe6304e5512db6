import MehoyRuntime.Lib.Lines
import MehoyRuntime.Lib.Text
import MehoyRuntime.Runtime.Vocabulary
import MehoyRuntime.Stream.Wire

/-!
# Which build the backend is

`identify` and `parse_banner`: the version line that an executable prints, read for its
build and its commit. `Says` is the shape of that line, whatever blanks are around it.
-/

namespace MehoyRuntime.Backend
open MehoyRuntime.Runtime (BackendIdentity)
open MehoyRuntime.Stream (isWhiteSpace fromUtf8Lossy)
open Text

/-- What the executable has written when it ends. -/
structure Output where
  stdout : List UInt8
  stderr : List UInt8
  deriving DecidableEq, Repr

def mark : List Char := "version:".toList

def lossy (bytes : List UInt8) : List Char := (fromUtf8Lossy (bytes.length + 1) bytes).toList

/-- The text that is read: of standard error, or of standard output where only that has a
version in it. -/
def bannerOf (output : Output) : List Char :=
  let banner := lossy output.stderr
  let out := lossy output.stdout
  if ¬ mark <:+: banner ∧ mark <:+: out then out else banner

/-- `lines` leaves out the line feed of a line, and the carriage return before it. -/
def chomp (line : List Char) : List Char :=
  match stripSuffix ['\n'] line with
  | none => line
  | some line => (stripSuffix ['\r'] line).getD line

def lines (text : List Char) : List (List Char) := (Lines.linesOf '\n' text).map chomp

def splitOnce (text : List Char) : List Char × List Char :=
  (text.takeWhile (· ≠ ' '), (text.dropWhile (· ≠ ' ')).drop 1)

def nonEmpty (text : List Char) : Option String :=
  if text = [] then none else some (String.ofList text)

def commitOf (remainder : List Char) : Option String :=
  ((stripPrefix ['('] (trim isWhiteSpace remainder)).bind (stripSuffix [')'])).bind nonEmpty

def parseBanner (executable : String) (banner : List Char) : BackendIdentity :=
  let found := (lines banner).findSome? fun line => stripPrefix mark (trim isWhiteSpace line)
  let text := String.ofList (trim isWhiteSpace banner)
  match found with
  | none => ⟨executable, none, none, text⟩
  | some rest =>
    let (number, remainder) := splitOnce (trim isWhiteSpace rest)
    ⟨executable, nonEmpty number, commitOf remainder, text⟩

/-- The process is run with `--version`; an error is that of running it. -/
def identify (executable : String) (output : Except String Output) :
    Except Runtime.BackendError BackendIdentity :=
  match output with
  | .error reason => .error (.unidentifiable executable reason)
  | .ok output => .ok (parseBanner executable (bannerOf output))

/-! ### The version line -/

/-- A line that says what its version is. -/
def Says (line body : List Char) : Prop :=
  Trimmed isWhiteSpace body ∧ ∃ before gap after, Blank isWhiteSpace before ∧
    Blank isWhiteSpace gap ∧ Blank isWhiteSpace after ∧
    line = before ++ mark ++ gap ++ body ++ after

/-- The first line of a banner that says one. -/
def FirstSays (banner body : List Char) : Prop :=
  ∃ before line after, lines banner = before ++ line :: after ∧ Says line body ∧
    ∀ other ∈ before, ∀ body, ¬ Says other body

/-- The build is what comes before the first space. -/
def HasBuild (body build : List Char) : Prop :=
  build ≠ [] ∧ ' ' ∉ build ∧ (body = build ∨ ∃ rest, body = build ++ ' ' :: rest)

/-- The commit is in the parentheses that the rest consists of. -/
def HasCommit (body commit : List Char) : Prop :=
  ∃ build gap, ' ' ∉ build ∧ Blank isWhiteSpace gap ∧ commit ≠ [] ∧
    body = build ++ ' ' :: (gap ++ '(' :: commit ++ [')'])

theorem trimmed_mark : Trimmed isWhiteSpace mark := by
  constructor
  · intro c hc
    obtain rfl : 'v' = c := Option.some.inj hc
    decide
  · intro c hc
    obtain rfl : ':' = c := Option.some.inj hc
    decide

theorem trimmed_line {gap body : List Char} (hbody : Trimmed isWhiteSpace body) (hne : body ≠ []) :
    Trimmed isWhiteSpace (mark ++ gap ++ body) := by
  constructor
  · intro c hc
    rw [List.append_assoc, List.head?_append_of_ne_nil _ (by decide)] at hc
    exact trimmed_mark.1 c hc
  · intro c hc
    rw [List.getLast?_append_of_ne_nil _ hne] at hc
    exact hbody.2 c hc

theorem trim_line {before gap body after : List Char} (hbody : Trimmed isWhiteSpace body)
    (hbefore : Blank isWhiteSpace before) (hgap : Blank isWhiteSpace gap)
    (hafter : Blank isWhiteSpace after) :
    ∃ rest, trim isWhiteSpace (before ++ mark ++ gap ++ body ++ after) = mark ++ rest ∧
      trim isWhiteSpace rest = body := by
  cases hcases : body with
  | nil =>
    have hblank : Blank isWhiteSpace (gap ++ after) := by
      intro c hc
      exact (List.mem_append.mp hc).elim (hgap c) (hafter c)
    refine ⟨[], ?_, rfl⟩
    simpa using trim_of_around hbefore hblank trimmed_mark
  | cons c body' =>
    rw [← hcases]
    have hne : body ≠ [] := by simp [hcases]
    refine ⟨gap ++ body, ?_, ?_⟩
    · simpa using trim_of_around hbefore hafter (trimmed_line hbody hne)
    · simpa using trim_of_around hgap blank_nil hbody

theorem says_iff {line body : List Char} : Says line body ↔
    (stripPrefix mark (trim isWhiteSpace line)).map (trim isWhiteSpace) = some body := by
  rw [Option.map_eq_some_iff]
  constructor
  · rintro ⟨hbody, before, gap, after, hbefore, hgap, hafter, rfl⟩
    obtain ⟨rest, htrim, hrest⟩ := trim_line hbody hbefore hgap hafter
    exact ⟨rest, stripPrefix_eq_some.mpr htrim, hrest⟩
  · rintro ⟨rest, hrest, rfl⟩
    obtain ⟨before, after, hbefore, hafter, hline⟩ := trim_around isWhiteSpace line
    obtain ⟨gap, after', hgap, hafter', hgaps⟩ := trim_around isWhiteSpace rest
    have hends : Blank isWhiteSpace (after' ++ after) := by
      intro c hc
      exact (List.mem_append.mp hc).elim (hafter' c) (hafter c)
    refine ⟨trimmed_trim rest, before, gap, after' ++ after, hbefore, hgap, hends, ?_⟩
    rw [stripPrefix_eq_some.mp hrest, hgaps] at hline
    rw [hline]
    simp only [List.append_assoc]

theorem nonEmpty_eq_some {text shown : List Char} :
    nonEmpty text = some (String.ofList shown) ↔ text = shown ∧ shown ≠ [] := by
  unfold nonEmpty
  constructor
  · intro h
    split at h
    · cases h
    · rename_i hne
      have hchars := congrArg String.toList (Option.some.inj h)
      rw [String.toList_ofList, String.toList_ofList] at hchars
      exact ⟨hchars, hchars ▸ hne⟩
  · rintro ⟨rfl, hne⟩
    rw [if_neg hne]

theorem splitOnce_spaceless {front : List Char} (h : ' ' ∉ front) :
    splitOnce front = (front, []) := by
  have hall : ∀ c ∈ front, (decide (c ≠ ' ')) = true := by
    intro c hc
    exact decide_eq_true fun hspace => h (hspace ▸ hc)
  rw [splitOnce, List.takeWhile_eq_self_iff.mpr hall, List.dropWhile_eq_nil_iff.mpr hall]
  rfl

theorem splitOnce_space {front rest : List Char} (h : ' ' ∉ front) :
    splitOnce (front ++ ' ' :: rest) = (front, rest) := by
  have hall : ∀ c ∈ front, (decide (c ≠ ' ')) = true := by
    intro c hc
    exact decide_eq_true fun hspace => h (hspace ▸ hc)
  rw [splitOnce, List.takeWhile_append_of_pos hall, List.dropWhile_append_of_pos hall]
  simp

/-- A text is cut at its first space, where it has one. -/
theorem splitOnce_cases (text : List Char) :
    (' ' ∉ text ∧ splitOnce text = (text, [])) ∨
      ∃ front rest, ' ' ∉ front ∧ text = front ++ ' ' :: rest ∧ splitOnce text = (front, rest) := by
  by_cases h : ' ' ∈ text
  · obtain ⟨front, rest, rfl, hfront⟩ := List.eq_append_cons_of_mem h
    exact .inr ⟨front, rest, hfront, rfl, splitOnce_space hfront⟩
  · exact .inl ⟨h, splitOnce_spaceless h⟩

theorem hasBuild_iff {body build : List Char} :
    nonEmpty (splitOnce body).1 = some (String.ofList build) ↔ HasBuild body build := by
  rw [nonEmpty_eq_some]
  constructor
  · rintro ⟨hnumber, hne⟩
    rcases splitOnce_cases body with ⟨hspaceless, hsplit⟩ | ⟨front, rest, hfront, hbody, hsplit⟩
    · rw [hsplit] at hnumber
      obtain rfl : body = build := hnumber
      exact ⟨hne, hspaceless, .inl rfl⟩
    · rw [hsplit] at hnumber
      obtain rfl : front = build := hnumber
      exact ⟨hne, hfront, .inr ⟨rest, hbody⟩⟩
  · rintro ⟨hne, hspaceless, rfl | ⟨rest, rfl⟩⟩
    · exact ⟨congrArg Prod.fst (splitOnce_spaceless hspaceless), hne⟩
    · exact ⟨congrArg Prod.fst (splitOnce_space hspaceless), hne⟩

theorem commitOf_eq_some {remainder commit : List Char} :
    commitOf remainder = some (String.ofList commit) ↔
      trim isWhiteSpace remainder = '(' :: commit ++ [')'] ∧ commit ≠ [] := by
  unfold commitOf
  rw [Option.bind_eq_some_iff]
  constructor
  · rintro ⟨inner, hinner, hcommit⟩
    obtain ⟨opened, hopened, hclosed⟩ := Option.bind_eq_some_iff.mp hinner
    obtain ⟨rfl, hne⟩ := nonEmpty_eq_some.mp hcommit
    rw [stripPrefix_eq_some.mp hopened, stripSuffix_eq_some.mp hclosed]
    exact ⟨rfl, hne⟩
  · rintro ⟨htrim, hne⟩
    refine ⟨commit, Option.bind_eq_some_iff.mpr ⟨commit ++ [')'], ?_, ?_⟩,
      nonEmpty_eq_some.mpr ⟨rfl, hne⟩⟩
    · exact stripPrefix_eq_some.mpr htrim
    · exact stripSuffix_eq_some.mpr rfl

theorem trimmed_parenthesised (commit : List Char) :
    Trimmed isWhiteSpace ('(' :: commit ++ [')']) := by
  constructor
  · intro c hc
    obtain rfl : '(' = c := Option.some.inj hc
    decide
  · intro c hc
    rw [List.getLast?_append_of_ne_nil _ (by decide)] at hc
    obtain rfl : ')' = c := Option.some.inj hc
    decide

theorem hasCommit_iff {body commit : List Char} (hbody : Trimmed isWhiteSpace body) :
    commitOf (splitOnce body).2 = some (String.ofList commit) ↔ HasCommit body commit := by
  rw [commitOf_eq_some]
  constructor
  · rintro ⟨htrim, hne⟩
    rcases splitOnce_cases body with ⟨-, hsplit⟩ | ⟨front, rest, hfront, rfl, hsplit⟩
    · rw [hsplit] at htrim
      cases htrim
    · rw [hsplit] at htrim
      obtain ⟨gap, after, hgap, hafter, hrest⟩ := trim_around isWhiteSpace rest
      rw [htrim] at hrest
      -- What follows the parenthesis would be a blank at the end of the body.
      cases hcases : after.getLast? with
      | none =>
        rw [List.getLast?_eq_none_iff.mp hcases, List.append_nil] at hrest
        exact ⟨front, gap, hfront, hgap, hne, by rw [hrest]; simp⟩
      | some c =>
        have hlast : c ∈ (front ++ ' ' :: rest).getLast? := by
          rw [hrest]
          simp [List.getLast?_append, hcases, List.getLast?_cons]
        have hblank := hafter c (List.mem_of_getLast? hcases)
        rw [hbody.2 c hlast] at hblank
        cases hblank
  · rintro ⟨build, gap, hspaceless, hgap, hne, rfl⟩
    rw [splitOnce_space hspaceless]
    refine ⟨?_, hne⟩
    have htrim := trim_of_around hgap blank_nil (trimmed_parenthesised commit)
    simpa using htrim

/-! ### The identity -/

theorem found_iff {banner body : List Char} :
    ((lines banner).findSome? fun line => stripPrefix mark (trim isWhiteSpace line)).map
      (trim isWhiteSpace) = some body ↔ FirstSays banner body := by
  have hfirst : ∀ line rest, stripPrefix mark (trim isWhiteSpace line) = some rest →
      Says line (trim isWhiteSpace rest) := by
    intro line rest hrest
    rw [says_iff, hrest]
    rfl
  rw [Option.map_eq_some_iff]
  constructor
  · rintro ⟨rest, hfound, rfl⟩
    obtain ⟨before, line, after, hlines, hrest, hnone⟩ := List.findSome?_eq_some_iff.mp hfound
    refine ⟨before, line, after, hlines, hfirst line rest hrest, ?_⟩
    intro other hother body hbody
    rw [says_iff, hnone other hother] at hbody
    cases hbody
  · rintro ⟨before, line, after, hlines, hline, hnone⟩
    obtain ⟨rest, hrest, htrim⟩ := Option.map_eq_some_iff.mp (says_iff.mp hline)
    refine ⟨rest, List.findSome?_eq_some_iff.mpr ⟨before, line, after, hlines, hrest, ?_⟩, htrim⟩
    intro other hother
    cases hother' : stripPrefix mark (trim isWhiteSpace other) with
    | none => rfl
    | some rest' => exact absurd (hfirst other rest' hother') (hnone other hother _)

theorem FirstSays.trimmed {banner body : List Char} (h : FirstSays banner body) :
    Trimmed isWhiteSpace body := by
  obtain ⟨before, line, after, -, hline, -⟩ := h
  exact hline.1

theorem parseBanner_of_first {executable : String} {banner body : List Char}
    (h : FirstSays banner body) :
    (parseBanner executable banner).build = nonEmpty (splitOnce body).1 ∧
      (parseBanner executable banner).commit = commitOf (splitOnce body).2 := by
  obtain ⟨rest, hfound, rfl⟩ := Option.map_eq_some_iff.mp (found_iff.mpr h)
  simp only [parseBanner, hfound, and_self]

theorem parseBanner_of_silent {executable : String} {banner : List Char}
    (h : ∀ body, ¬ FirstSays banner body) :
    (parseBanner executable banner).build = none ∧
      (parseBanner executable banner).commit = none := by
  cases hfound : (lines banner).findSome? fun line => stripPrefix mark (trim isWhiteSpace line) with
  | none => simp only [parseBanner, hfound, and_self]
  | some rest =>
    refine absurd (found_iff.mp ?_) (h (trim isWhiteSpace rest))
    rw [hfound]
    rfl

theorem build_iff {executable : String} {banner build : List Char} :
    (parseBanner executable banner).build = some (String.ofList build) ↔
      ∃ body, FirstSays banner body ∧ HasBuild body build := by
  constructor
  · intro hbuild
    by_cases hfirst : ∃ body, FirstSays banner body
    · obtain ⟨body, hbody⟩ := hfirst
      rw [(parseBanner_of_first hbody).1] at hbuild
      exact ⟨body, hbody, hasBuild_iff.mp hbuild⟩
    · rw [(parseBanner_of_silent (not_exists.mp hfirst)).1] at hbuild
      cases hbuild
  · rintro ⟨body, hbody, hbuild⟩
    rw [(parseBanner_of_first hbody).1]
    exact hasBuild_iff.mpr hbuild

theorem commit_iff {executable : String} {banner commit : List Char} :
    (parseBanner executable banner).commit = some (String.ofList commit) ↔
      ∃ body, FirstSays banner body ∧ HasCommit body commit := by
  constructor
  · intro hcommit
    by_cases hfirst : ∃ body, FirstSays banner body
    · obtain ⟨body, hbody⟩ := hfirst
      rw [(parseBanner_of_first hbody).2] at hcommit
      exact ⟨body, hbody, (hasCommit_iff hbody.trimmed).mp hcommit⟩
    · rw [(parseBanner_of_silent (not_exists.mp hfirst)).2] at hcommit
      cases hcommit
  · rintro ⟨body, hbody, hcommit⟩
    rw [(parseBanner_of_first hbody).2]
    exact (hasCommit_iff hbody.trimmed).mpr hcommit

/-- What an executable that was run is identified as. -/
theorem identity_says (executable : String) (output : Output) :
    ∃ identity, identify executable (.ok output) = .ok identity ∧
      identity.executable = executable ∧
      (∀ build : List Char, identity.build = some (String.ofList build) ↔
        ∃ body, FirstSays (bannerOf output) body ∧ HasBuild body build) ∧
      ∀ commit : List Char, identity.commit = some (String.ofList commit) ↔
        ∃ body, FirstSays (bannerOf output) body ∧ HasCommit body commit := by
  refine ⟨_, rfl, ?_, fun _ => build_iff, fun _ => commit_iff⟩
  unfold parseBanner
  cases (lines (bannerOf output)).findSome? fun line =>
    stripPrefix mark (trim isWhiteSpace line) <;> rfl

example : (parseBanner "llama-server" "loaded x\r\n version: 9010 (d05fe1d7d)\r\n".toList).commit =
    some "d05fe1d7d" := by decide

end MehoyRuntime.Backend
