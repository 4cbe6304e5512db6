import Mathlib.Data.List.DropRight
import Mathlib.Data.List.Infix

/-!
# Texts as lists of characters

The string functions of a program that look at one character after another, on lists.
-/

namespace Text
variable {α : Type*} [DecidableEq α]

/-- What follows a prefix, where the text begins with it. -/
def stripPrefix (start text : List α) : Option (List α) :=
  if start <+: text then some (text.drop start.length) else none

theorem stripPrefix_eq_some {start text rest : List α} :
    stripPrefix start text = some rest ↔ text = start ++ rest := by
  unfold stripPrefix
  split
  · rename_i h
    obtain ⟨tail, rfl⟩ := h
    simp [eq_comm]
  · rename_i h
    constructor
    · intro hrest
      cases hrest
    · intro htext
      exact absurd ⟨rest, htext.symm⟩ h

@[simp] theorem stripPrefix_append (start rest : List α) :
    stripPrefix start (start ++ rest) = some rest :=
  stripPrefix_eq_some.mpr rfl

theorem stripPrefix_other {start other : List α} (hlen : start.length ≤ other.length)
    (h : ¬ start <+: other) (rest : List α) : stripPrefix start (other ++ rest) = none := by
  unfold stripPrefix
  rw [if_neg]
  intro hstart
  exact h (List.prefix_of_prefix_length_le hstart (List.prefix_append other rest) hlen)

/-- What comes before a suffix, where the text ends with it. -/
def stripSuffix (ending text : List α) : Option (List α) :=
  (stripPrefix ending.reverse text.reverse).map List.reverse

theorem stripSuffix_eq_some {ending text rest : List α} :
    stripSuffix ending text = some rest ↔ text = rest ++ ending := by
  unfold stripSuffix
  rw [Option.map_eq_some_iff]
  constructor
  · rintro ⟨reversed, hreversed, rfl⟩
    have htext := congrArg List.reverse (stripPrefix_eq_some.mp hreversed)
    simpa using htext
  · rintro rfl
    exact ⟨rest.reverse, stripPrefix_eq_some.mpr (by simp), List.reverse_reverse rest⟩

theorem mapM_map_some {β γ : Type*} {read : β → Option γ} {show' : γ → β}
    (h : ∀ x, read (show' x) = some x) (l : List γ) : (l.map show').mapM read = some l := by
  induction l with
  | nil => rfl
  | cons x l ih => simp [h x, ih]

theorem digits_isDigit {n : ℕ} : ∀ c ∈ Nat.toDigits 10 n, c.isDigit = true :=
  fun _ hc => Nat.isDigit_of_mem_toDigits (by omega) (by omega) hc

/-! ### Blanks at the ends -/

variable {β : Type*} {blank : β → Bool}

/-- The text between the blanks at its two ends. -/
def trim (blank : β → Bool) (text : List β) : List β :=
  (text.dropWhile blank).rdropWhile blank

def Blank (blank : β → Bool) (text : List β) : Prop := ∀ c ∈ text, blank c = true

theorem blank_nil : Blank blank ([] : List β) := by
  simp [Blank]

/-- Neither the first nor the last character is a blank. -/
def Trimmed (blank : β → Bool) (text : List β) : Prop :=
  (∀ c ∈ text.head?, blank c = false) ∧ ∀ c ∈ text.getLast?, blank c = false

theorem dropWhile_unblank {text : List β} (h : ∀ c ∈ text.head?, blank c = false) :
    text.dropWhile blank = text := by
  cases text with
  | nil => rfl
  | cons c text => rw [List.dropWhile_cons, if_neg (by simp [h c rfl])]

theorem head_dropWhile {text : List β} {c : β} (h : c ∈ (text.dropWhile blank).head?) :
    blank c = false := by
  have hhead := List.head?_dropWhile_not blank text
  rw [Option.mem_def.mp h] at hhead
  exact hhead

theorem trimmed_trim (text : List β) : Trimmed blank (trim blank text) := by
  constructor
  · intro c hc
    obtain ⟨rest, hrest⟩ := List.rdropWhile_prefix blank (text.dropWhile blank)
    refine @head_dropWhile _ blank text c ?_
    rw [← hrest, List.head?_append]
    have htrim : (List.rdropWhile blank (text.dropWhile blank)).head? = some c := hc
    rw [htrim]
    rfl
  · intro c hc
    rw [trim, List.rdropWhile, List.getLast?_reverse] at hc
    exact head_dropWhile hc

variable (blank) in
theorem trim_around (text : List β) : ∃ before after, Blank blank before ∧ Blank blank after ∧
    text = before ++ trim blank text ++ after := by
  refine ⟨text.takeWhile blank, (text.dropWhile blank).rtakeWhile blank, ?_, ?_, ?_⟩
  · exact fun c hc => List.mem_takeWhile_imp hc
  · exact fun c hc => List.mem_rtakeWhile_imp hc
  · rw [trim, List.append_assoc, List.rdropWhile_append_rtakeWhile, List.takeWhile_append_dropWhile]

theorem trim_of_around {before core after : List β} (hbefore : Blank blank before)
    (hafter : Blank blank after) (hcore : Trimmed blank core) :
    trim blank (before ++ core ++ after) = core := by
  rw [trim, List.append_assoc, List.dropWhile_append_of_pos hbefore]
  cases core with
  | nil =>
    have hnone : after.dropWhile blank = [] := List.dropWhile_eq_nil_iff.mpr hafter
    rw [List.nil_append, hnone, List.rdropWhile_nil]
  | cons c core =>
    have hhead : ∀ d ∈ (c :: core ++ after).head?, blank d = false := hcore.1
    rw [dropWhile_unblank hhead, List.rdropWhile, List.reverse_append,
      List.dropWhile_append_of_pos fun d hd => hafter d (List.mem_reverse.mp hd),
      dropWhile_unblank, List.reverse_reverse]
    intro d hd
    rw [List.head?_reverse] at hd
    exact hcore.2 d hd

/-! ### Bytes in hexadecimal -/

def hexDigit (n : ℕ) : Char := "0123456789abcdef".toList.getD n '0'

/-- Two digits a byte. -/
def hexOf (bytes : List UInt8) : String :=
  String.ofList (bytes.flatMap fun b => [hexDigit (b.toNat / 16), hexDigit (b.toNat % 16)])

theorem hexDigit_injective :
    ∀ n < 16, ∀ m < 16, hexDigit n = hexDigit m → n = m := by
  decide

theorem hexOf_injective : Function.Injective hexOf := by
  intro bytes bytes' h
  have hchars := congrArg String.toList h
  simp only [hexOf, String.toList_ofList] at hchars
  clear h
  induction bytes generalizing bytes' with
  | nil =>
    cases bytes' with
    | nil => rfl
    | cons b bytes' => simp at hchars
  | cons b bytes ih =>
    cases bytes' with
    | nil => simp at hchars
    | cons b' bytes' =>
      simp only [List.flatMap_cons, List.cons_append, List.nil_append, List.cons.injEq] at hchars
      obtain ⟨hhigh, hlow, hrest⟩ := hchars
      have hb := b.toNat_lt
      have hb' := b'.toNat_lt
      have hquotient := hexDigit_injective _ (by omega) _ (by omega) hhigh
      have hremainder := hexDigit_injective _ (by omega) _ (by omega) hlow
      obtain rfl : b = b' := by
        apply UInt8.toNat_inj.mp
        omega
      rw [ih hrest]

end Text
