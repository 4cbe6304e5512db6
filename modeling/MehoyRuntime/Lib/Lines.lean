import Mathlib.Data.List.Basic

/-!
# Lines

A sequence cut behind each separator. A reader that holds only what has been delivered
takes the lines off its front one at a time, and gets the lines of the whole.
-/

namespace Lines
universe u
variable {α : Type u} [DecidableEq α] (separator : α)

/-- The first line with its separator, and what follows it. -/
def splitLine : List α → Option (List α × List α)
  | [] => none
  | x :: xs => if x = separator then some ([x], xs) else (splitLine xs).map fun (line, rest) => (x :: line, rest)

/-- What follows the last separator is a line where it is not empty. -/
def linesOf : List α → List (List α)
  | [] => []
  | x :: xs =>
    if x = separator then [x] :: linesOf xs
    else
      match linesOf xs with
      | [] => [[x]]
      | line :: lines => (x :: line) :: lines

variable {separator}

theorem splitLine_append {xs line rest : List α} (h : splitLine separator xs = some (line, rest)) :
    xs = line ++ rest ∧ line ≠ [] := by
  induction xs generalizing line with
  | nil => cases h
  | cons x xs ih =>
    simp only [splitLine] at h
    split at h
    · cases h
      exact ⟨rfl, List.cons_ne_nil _ _⟩
    · obtain ⟨⟨first, after⟩, hfirst, heq⟩ := Option.map_eq_some_iff.mp h
      cases heq
      obtain ⟨rfl, -⟩ := ih hfirst
      exact ⟨rfl, List.cons_ne_nil _ _⟩

/-- What is delivered later does not change a line that is whole. -/
theorem linesOf_split {xs line rest : List α} (h : splitLine separator xs = some (line, rest))
    (later : List α) :
    linesOf separator (xs ++ later) = line :: linesOf separator (rest ++ later) := by
  induction xs generalizing line with
  | nil => cases h
  | cons x xs ih =>
    simp only [splitLine] at h
    split at h
    · rename_i hx
      cases h
      simp only [List.cons_append, linesOf, if_pos hx]
    · rename_i hx
      obtain ⟨⟨first, after⟩, hfirst, heq⟩ := Option.map_eq_some_iff.mp h
      cases heq
      simp only [List.cons_append, linesOf, if_neg hx, ih hfirst]

theorem linesOf_unsplit {xs : List α} (h : splitLine separator xs = none) (hxs : xs ≠ []) :
    linesOf separator xs = [xs] := by
  induction xs with
  | nil => exact absurd rfl hxs
  | cons x xs ih =>
    simp only [splitLine] at h
    split at h
    · cases h
    · rename_i hx
      have htail := Option.map_eq_none_iff.mp h
      cases xs with
      | nil => simp only [linesOf, if_neg hx]
      | cons y ys =>
        rw [linesOf, if_neg hx, ih htail (List.cons_ne_nil _ _)]

theorem linesOf_terminated {rows : List (List α)} (h : ∀ row ∈ rows, separator ∉ row) :
    linesOf separator (rows.flatMap (· ++ [separator])) = rows.map (· ++ [separator]) := by
  induction rows with
  | nil => rfl
  | cons row rows ih =>
    have hrest := ih fun other hother => h other (List.mem_cons_of_mem row hother)
    have hrow := h row List.mem_cons_self
    simp only [List.flatMap_cons, List.map_cons]
    -- The first row goes character by character; none of them ends a line.
    induction row with
    | nil => simp [linesOf, hrest]
    | cons x row ihrow =>
      obtain ⟨hx, hrow⟩ : x ≠ separator ∧ separator ∉ row := by
        simpa [eq_comm] using hrow
      have hrows : ∀ other ∈ row :: rows, separator ∉ other := by
        intro other hother
        rcases List.mem_cons.mp hother with rfl | hmem
        · exact hrow
        · exact h other (List.mem_cons_of_mem _ hmem)
      simp only [List.cons_append, linesOf, if_neg hx, ihrow hrows hrow]

/-- Only the last character of a line can be the separator. -/
theorem separator_last {xs line before after : List α} (hline : line ∈ linesOf separator xs)
    (h : line = before ++ separator :: after) : after = [] := by
  induction xs generalizing line before after with
  | nil => cases hline
  | cons x xs ih =>
    rw [linesOf] at hline
    split at hline
    · rcases List.mem_cons.mp hline with rfl | hmem
      · cases before with
        | nil => exact (List.cons.inj h).2.symm
        | cons y before => simp at h
      · exact ih hmem h
    · rename_i hx
      cases hlines : linesOf separator xs with
      | nil =>
        rw [hlines] at hline
        obtain rfl := List.mem_singleton.mp hline
        cases before with
        | nil => exact absurd (List.cons.inj h).1 hx
        | cons y before => simp at h
      | cons first lines =>
        rw [hlines] at hline ih
        rcases List.mem_cons.mp hline with rfl | hmem
        · cases before with
          | nil => exact absurd (List.cons.inj h).1 hx
          | cons y before => exact ih List.mem_cons_self (List.cons.inj h).2
        · exact ih (List.mem_cons_of_mem first hmem) h

end Lines
