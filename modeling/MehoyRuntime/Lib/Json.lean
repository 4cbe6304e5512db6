import Mathlib.Data.List.Basic
import MehoyRuntime.Lib.Text

/-!
# What a text in JSON says

The values of JSON, and the relation between a value and the many texts that say it, with
any blanks between the tokens and any escapes in the strings. `Document.unique`: a text
says one value at most, so all that write JSON are understood alike by all that read it.
-/

namespace Json

/-! ### Numbers -/

def Digits (digits : List Char) : Prop := digits ≠ [] ∧ ∀ d ∈ digits, d.isDigit = true

/-- Digits with no zero before another one. -/
def Whole (digits : List Char) : Prop :=
  Digits digits ∧ (digits.head? = some '0' → digits = ['0'])

def Fraction (text : List Char) : Prop := text = [] ∨ ∃ digits, Digits digits ∧ text = '.' :: digits

def Exponent (text : List Char) : Prop :=
  text = [] ∨ ∃ e sign digits, e ∈ ['e', 'E'] ∧ sign ∈ [[], ['+'], ['-']] ∧ Digits digits ∧
    text = e :: (sign ++ digits)

def IsNumber (text : List Char) : Prop :=
  ∃ sign whole fraction exponent, sign ∈ [[], ['-']] ∧ Whole whole ∧ Fraction fraction ∧
    Exponent exponent ∧ text = sign ++ whole ++ fraction ++ exponent

/-- A number is the text of its literal. -/
@[ext] structure Number where
  text : List Char
  wellFormed : IsNumber text
  deriving DecidableEq

def isNumberChar (c : Char) : Bool := c.isDigit || c ∈ ['-', '+', '.', 'e', 'E']

theorem Digits.isNumberChar {digits : List Char} (h : Digits digits) :
    ∀ c ∈ digits, isNumberChar c = true := by
  intro c hc
  simp [Json.isNumberChar, h.2 c hc]

theorem Number.isNumberChar (n : Number) : ∀ c ∈ n.text, isNumberChar c = true := by
  obtain ⟨sign, whole, fraction, exponent, hsign, hwhole, hfraction, hexponent, htext⟩ :=
    n.wellFormed
  intro c hc
  rw [htext] at hc
  simp only [List.mem_append] at hc
  rcases hc with ((hc | hc) | hc) | hc
  · have hminus : sign = [] ∨ sign = ['-'] := by simpa using hsign
    rcases hminus with rfl | rfl
    · simp at hc
    · rw [List.mem_singleton.mp hc]
      rfl
  · exact hwhole.1.isNumberChar c hc
  · rcases hfraction with rfl | ⟨digits, hdigits, rfl⟩
    · simp at hc
    · rcases List.mem_cons.mp hc with rfl | hc
      · rfl
      · exact hdigits.isNumberChar c hc
  · rcases hexponent with rfl | ⟨e, sign', digits, he, hsign', hdigits, rfl⟩
    · simp at hc
    · simp only [List.mem_cons, List.mem_append] at hc he hsign'
      rcases hc with rfl | hc | hc
      · rcases he with rfl | rfl | he
        · rfl
        · rfl
        · simp at he
      · rcases hsign' with rfl | rfl | rfl | hnone
        · simp at hc
        · rw [List.mem_singleton.mp hc]
          rfl
        · rw [List.mem_singleton.mp hc]
          rfl
        · simp at hnone
      · exact hdigits.isNumberChar c hc

theorem Number.head (n : Number) :
    ∃ c rest, n.text = c :: rest ∧ (c = '-' ∨ c.isDigit = true) := by
  obtain ⟨sign, whole, fraction, exponent, hsign, hwhole, -, -, htext⟩ := n.wellFormed
  have hminus : sign = [] ∨ sign = ['-'] := by simpa using hsign
  rcases hminus with rfl | rfl
  · obtain ⟨d, rest, rfl⟩ := List.exists_cons_of_ne_nil hwhole.1.1
    exact ⟨d, rest ++ fraction ++ exponent, by simpa using htext, Or.inr (hwhole.1.2 d (by simp))⟩
  · exact ⟨'-', whole ++ fraction ++ exponent, by simpa using htext, Or.inl rfl⟩

theorem whole_toDigits (n : ℕ) : Whole (Nat.toDigits 10 n) := by
  refine ⟨⟨Nat.toDigits_ne_nil, Text.digits_isDigit⟩, ?_⟩
  induction n using Nat.strongRecOn with
  | ind n ih =>
    rw [Nat.toDigits_eq_if (by omega)]
    split
    · rename_i hlt
      intro hzero
      simpa using hzero
    · rename_i hle
      intro hzero
      have hdeeper := ih (n / 10) (by omega)
      rw [List.head?_append_of_ne_nil _ Nat.toDigits_ne_nil] at hzero
      have hsingle := hdeeper hzero
      have hvalue : n / 10 = 0 := by
        rw [← Nat.ofDigitChars_ten_toDigits (n := n / 10), hsingle]
        rfl
      omega

/-- A natural number, written in decimal. -/
def Number.ofNat (n : ℕ) : Number where
  text := Nat.toDigits 10 n
  wellFormed := by
    refine ⟨[], Nat.toDigits 10 n, [], [], ?_, whole_toDigits n, Or.inl rfl, Or.inl rfl, ?_⟩ <;>
      simp

theorem Number.ofNat_injective : Function.Injective Number.ofNat := by
  intro n n' h
  have hdigits : Nat.toDigits 10 n = Nat.toDigits 10 n' := congrArg Number.text h
  rw [← Nat.ofDigitChars_ten_toDigits (n := n), hdigits, Nat.ofDigitChars_ten_toDigits]

/-! ### Strings -/

/-- The character that stands for another after a backslash. -/
def shortEscape : Char → Option Char
  | '"' => some '"'
  | '\\' => some '\\'
  | '/' => some '/'
  | 'b' => some '\x08'
  | 'f' => some '\x0c'
  | 'n' => some '\n'
  | 'r' => some '\r'
  | 't' => some '\t'
  | _ => none

def hexDigit (c : Char) : Option ℕ :=
  if c.isDigit then some (c.toNat - 48)
  else if 'a' ≤ c ∧ c ≤ 'f' then some (c.toNat - 87)
  else if 'A' ≤ c ∧ c ≤ 'F' then some (c.toNat - 55)
  else none

/-- A code unit in four hexadecimal digits. -/
def readUnit : List Char → Option (ℕ × List Char)
  | a :: b :: c :: d :: rest => do
    let digits ← [a, b, c, d].mapM hexDigit
    some (digits.foldl (fun value digit => 16 * value + digit) 0, rest)
  | _ => none

/-- What an escape says, of the text after its backslash: a pair of surrogates is one
character, and neither of them is one alone. -/
def readEscape : List Char → Option (Char × List Char)
  | 'u' :: text => do
    let (unit, rest) ← readUnit text
    if unit < 0xd800 ∨ 0xdfff < unit then some (Char.ofNat unit, rest)
    else if 0xdbff < unit then none
    else
      match rest with
      | '\\' :: 'u' :: text => do
        let (low, rest) ← readUnit text
        if 0xdc00 ≤ low ∧ low ≤ 0xdfff then
          some (Char.ofNat (0x10000 + 0x400 * (unit - 0xd800) + (low - 0xdc00)), rest)
        else none
      | _ => none
  | c :: rest => (shortEscape c).map fun escaped => (escaped, rest)
  | [] => none

/-- The characters of a string, the text after its first quote, and what follows it. -/
inductive Chars : List Char → List Char → List Char → Prop
  | close (rest : List Char) : Chars [] ('"' :: rest) rest
  | plain {c : Char} {cs text rest : List Char} (hquote : c ≠ '"') (hescape : c ≠ '\\')
      (hcontrol : 0x20 ≤ c.toNat) (h : Chars cs text rest) : Chars (c :: cs) (c :: text) rest
  | escape {c : Char} {cs text next rest : List Char} (hread : readEscape text = some (c, next))
      (h : Chars cs next rest) : Chars (c :: cs) ('\\' :: text) rest

theorem Chars.head_cases {cs text rest : List Char} {c : Char} (h : Chars cs (c :: text) rest) :
    (c = '"' ∧ cs = [] ∧ rest = text) ∨
    (c ≠ '"' ∧ c ≠ '\\' ∧ ∃ more, cs = c :: more ∧ Chars more text rest) ∨
    (c = '\\' ∧ ∃ d more next, cs = d :: more ∧ readEscape text = some (d, next) ∧
      Chars more next rest) := by
  cases h with
  | close => exact Or.inl ⟨rfl, rfl, rfl⟩
  | plain hquote hescape hcontrol h => exact Or.inr (Or.inl ⟨hquote, hescape, _, rfl, h⟩)
  | escape hread h => exact Or.inr (Or.inr ⟨rfl, _, _, _, rfl, hread, h⟩)

theorem Chars.unique {cs text rest : List Char} (h : Chars cs text rest) :
    ∀ {cs' rest' : List Char}, Chars cs' text rest' → cs = cs' ∧ rest = rest' := by
  induction h with
  | close rest =>
    intro cs' rest' h'
    rcases h'.head_cases with ⟨-, hcs, hrest⟩ | ⟨hquote, -⟩ | ⟨hescape, -⟩
    · exact ⟨hcs.symm, hrest.symm⟩
    · exact absurd rfl hquote
    · exact absurd hescape (by decide)
  | plain hquote hescape hcontrol h ih =>
    intro cs' rest' h'
    rcases h'.head_cases with ⟨hc, -⟩ | ⟨-, -, more, rfl, hmore⟩ | ⟨hc, -⟩
    · exact absurd hc hquote
    · obtain ⟨rfl, rfl⟩ := ih hmore
      exact ⟨rfl, rfl⟩
    · exact absurd hc hescape
  | escape hread h ih =>
    intro cs' rest' h'
    rcases h'.head_cases with ⟨hc, -⟩ | ⟨-, hc, -⟩ | ⟨-, d, more, next, rfl, hread', hmore⟩
    · exact absurd hc (by decide)
    · exact absurd rfl hc
    · rw [hread] at hread'
      cases hread'
      obtain ⟨rfl, rfl⟩ := ih hmore
      exact ⟨rfl, rfl⟩

/-! ### Blanks -/

def isBlank (c : Char) : Bool := c ∈ [' ', '\t', '\n', '\r']

/-- Nothing but blanks stands before the rest. -/
def Space (text rest : List Char) : Prop :=
  ∃ blanks, text = blanks ++ rest ∧ ∀ c ∈ blanks, isBlank c = true

theorem Space.dropWhile {text rest : List Char} {c : Char} (h : Space text (c :: rest))
    (hc : isBlank c = false) : text.dropWhile isBlank = c :: rest := by
  obtain ⟨blanks, rfl, hblanks⟩ := h
  rw [List.dropWhile_append_of_pos hblanks]
  simp [hc]

theorem Space.unique {text rest rest' : List Char} {c c' : Char} (h : Space text (c :: rest))
    (h' : Space text (c' :: rest')) (hc : isBlank c = false) (hc' : isBlank c' = false) :
    c = c' ∧ rest = rest' := by
  have hsame := (h.dropWhile hc).symm.trans (h'.dropWhile hc')
  simpa using hsame

/-- No longer number stands here. -/
def Ends (text : List Char) : Prop := ∀ c ∈ text.head?, isNumberChar c = false

theorem Space.ends {text rest : List Char} (h : Space text rest) (hrest : Ends rest) :
    Ends text := by
  obtain ⟨blanks, rfl, hblanks⟩ := h
  cases blanks with
  | nil => exact hrest
  | cons b blanks =>
    intro c hc
    obtain rfl : b = c := by simpa using hc
    have hblank := hblanks b (by simp)
    simp only [isBlank, List.mem_cons, List.not_mem_nil, or_false, decide_eq_true_eq] at hblank
    rcases hblank with rfl | rfl | rfl | rfl <;> rfl

theorem Number.unique {n n' : Number} {rest rest' : List Char} (hends : Ends rest)
    (hends' : Ends rest') (h : n.text ++ rest = n'.text ++ rest') : n = n' ∧ rest = rest' := by
  have htake : ∀ {m : Number} {tail : List Char}, Ends tail →
      (m.text ++ tail).takeWhile Json.isNumberChar = m.text := by
    intro m tail htail
    rw [List.takeWhile_append_of_pos m.isNumberChar]
    cases tail with
    | nil => simp
    | cons c tail => simp [htail c (by simp)]
  have htext : n.text = n'.text := by
    rw [← htake hends, h, htake hends']
  obtain rfl : n = n' := Number.ext htext
  exact ⟨rfl, List.append_cancel_left h⟩

/-! ### Values -/

inductive Value
  | null
  | bool (b : Bool)
  | number (n : Number)
  | string (text : String)
  | array (items : List Value)
  | object (members : List (String × Value))

/-- What a stretch of a text can say: a value, or what follows an opening bracket or one of
the items, with its closing bracket. -/
inductive Part
  | value (v : Value)
  | items (first : Bool) (vs : List Value)
  | members (first : Bool) (ms : List (String × Value))

/-- The next item stands here: right away for the first one, else after a comma. -/
def Opens (first : Bool) (text rest : List Char) : Prop :=
  if first then Space text rest else ∃ more, Space text (',' :: more) ∧ Space more rest

/-- A part, a text that begins with it, and what follows it. -/
inductive Reads : Part → List Char → List Char → Prop
  | null (rest : List Char) : Reads (.value .null) ("null".toList ++ rest) rest
  | bool (b : Bool) (rest : List Char) :
    Reads (.value (.bool b)) ((if b then "true" else "false").toList ++ rest) rest
  | number (n : Number) (rest : List Char) : Reads (.value (.number n)) (n.text ++ rest) rest
  | string {cs text rest : List Char} (h : Chars cs text rest) :
    Reads (.value (.string (String.ofList cs))) ('"' :: text) rest
  | array {vs : List Value} {text rest : List Char} (h : Reads (.items true vs) text rest) :
    Reads (.value (.array vs)) ('[' :: text) rest
  | object {ms : List (String × Value)} {text rest : List Char}
    (h : Reads (.members true ms) text rest) : Reads (.value (.object ms)) ('{' :: text) rest
  | noItem {first : Bool} {text rest : List Char} (h : Space text (']' :: rest)) :
    Reads (.items first []) text rest
  | item {first : Bool} {v : Value} {vs : List Value} {text next more rest : List Char}
    (hopens : Opens first text next) (h : Reads (.value v) next more)
    (hmore : Reads (.items false vs) more rest) : Reads (.items first (v :: vs)) text rest
  | noMember {first : Bool} {text rest : List Char} (h : Space text ('}' :: rest)) :
    Reads (.members first []) text rest
  | member {first : Bool} {cs : List Char} {v : Value} {ms : List (String × Value)}
    {text name colon after next more rest : List Char}
    (hopens : Opens first text ('"' :: name)) (hname : Chars cs name colon)
    (hcolon : Space colon (':' :: after)) (hnext : Space after next)
    (h : Reads (.value v) next more) (hmore : Reads (.members false ms) more rest) :
    Reads (.members first ((String.ofList cs, v) :: ms)) text rest

/-- A text that says a value and nothing else. -/
def Document (v : Value) (text : List Char) : Prop :=
  ∃ next rest, Space text next ∧ Reads (.value v) next rest ∧ Space rest []

/-! ### One value at most -/

/-- The character that a value begins with. -/
def Value.Starts : Value → Char → Prop
  | .null, c => c = 'n'
  | .bool b, c => c = if b then 't' else 'f'
  | .number _, c => c = '-' ∨ c.isDigit = true
  | .string _, c => c = '"'
  | .array _, c => c = '['
  | .object _, c => c = '{'

theorem Reads.starts {v : Value} {text rest : List Char} (h : Reads (.value v) text rest) :
    ∃ c more, text = c :: more ∧ v.Starts c := by
  cases h with
  | null => exact ⟨'n', _, rfl, rfl⟩
  | bool b =>
    cases b with
    | false => exact ⟨'f', _, rfl, rfl⟩
    | true => exact ⟨'t', _, rfl, rfl⟩
  | number n =>
    obtain ⟨c, more, htext, hc⟩ := n.head
    exact ⟨c, more ++ rest, by simp [htext], hc⟩
  | string h => exact ⟨'"', _, rfl, rfl⟩
  | array h => exact ⟨'[', _, rfl, rfl⟩
  | object h => exact ⟨'{', _, rfl, rfl⟩

theorem Value.Starts.not_blank {v : Value} {c : Char} (h : v.Starts c) : isBlank c = false := by
  cases v with
  | number n =>
    rcases h with rfl | hdigit
    · rfl
    · by_contra hblank
      simp only [isBlank, List.mem_cons, List.not_mem_nil, or_false, decide_eq_true_eq,
        Bool.not_eq_false] at hblank
      rcases hblank with rfl | rfl | rfl | rfl <;> exact absurd hdigit (by decide)
  | bool b =>
    cases b with
    | false =>
      obtain rfl : c = 'f' := h
      rfl
    | true =>
      obtain rfl : c = 't' := h
      rfl
  | null | string text | array items | object members =>
    cases h
    rfl

/-- A value follows a comma or a bracket, and no bracket closes there. -/
theorem Value.Starts.not_close {v : Value} {c : Char} (h : v.Starts c) : c ≠ ']' := by
  rintro rfl
  cases v with
  | bool b => cases b <;> exact absurd h (by simp [Starts])
  | null | number n | string text | array items | object members =>
    exact absurd h (by simp [Starts])

theorem Opens.unique {first : Bool} {text rest rest' : List Char} {c c' : Char}
    (h : Opens first text (c :: rest)) (h' : Opens first text (c' :: rest'))
    (hc : isBlank c = false) (hc' : isBlank c' = false) : c = c' ∧ rest = rest' := by
  cases first with
  | true => exact Space.unique h h' hc hc'
  | false =>
    obtain ⟨more, hcomma, hmore⟩ := h
    obtain ⟨more', hcomma', hmore'⟩ := h'
    obtain ⟨-, rfl⟩ := hcomma.unique hcomma' rfl rfl
    exact hmore.unique hmore' hc hc'

/-- Where an item stands, no bracket closes. -/
theorem Opens.not_close {first : Bool} {text rest rest' : List Char} {c close : Char}
    (h : Opens first text (c :: rest)) (h' : Space text (close :: rest'))
    (hc : isBlank c = false) (hclose : isBlank close = false) (hne : c ≠ close)
    (hcomma : close ≠ ',') : False := by
  cases first with
  | true => exact hne (Space.unique h h' hc hclose).1
  | false =>
    obtain ⟨more, hmore, -⟩ := h
    exact hcomma (hmore.unique h' rfl hclose).1.symm

theorem Opens.ends {text rest : List Char} (h : Opens false text rest) : Ends text := by
  obtain ⟨more, hcomma, -⟩ := h
  exact hcomma.ends (by simp [Ends, isNumberChar])

theorem Reads.items_ends {vs : List Value} {text rest : List Char}
    (h : Reads (.items false vs) text rest) : Ends text := by
  cases h with
  | noItem h => exact h.ends (by simp [Ends, isNumberChar])
  | item hopens h hmore => exact hopens.ends

theorem Reads.members_ends {ms : List (String × Value)} {text rest : List Char}
    (h : Reads (.members false ms) text rest) : Ends text := by
  cases h with
  | noMember h => exact h.ends (by simp [Ends, isNumberChar])
  | member hopens hname hcolon hnext h hmore => exact hopens.ends

theorem reads_null {text rest : List Char} (h : Reads (.value .null) text rest) :
    text = "null".toList ++ rest := by
  cases h
  rfl

theorem reads_bool {b : Bool} {text rest : List Char} (h : Reads (.value (.bool b)) text rest) :
    text = (if b then "true" else "false").toList ++ rest := by
  cases h
  rfl

theorem reads_number {n : Number} {text rest : List Char}
    (h : Reads (.value (.number n)) text rest) : text = n.text ++ rest := by
  cases h
  rfl

/-- Whatever else is read of the same text is the same part, with the same rest. -/
def Part.Unique : Part → List Char → List Char → Prop
  | .value v, text, rest => Ends rest →
    ∀ v' rest', Reads (.value v') text rest' → Ends rest' → v = v' ∧ rest = rest'
  | .items first vs, text, rest =>
    ∀ vs' rest', Reads (.items first vs') text rest' → vs = vs' ∧ rest = rest'
  | .members first ms, text, rest =>
    ∀ ms' rest', Reads (.members first ms') text rest' → ms = ms' ∧ rest = rest'

theorem Value.starts_null {v : Value} (h : v.Starts 'n') : v = .null := by
  rcases v with _ | (_ | _) | _ | _ | _ | _ <;> simp [Starts] at h ⊢

theorem Value.starts_bool {v : Value} {b : Bool} (h : v.Starts (if b then 't' else 'f')) :
    v = .bool b := by
  rcases v with _ | (_ | _) | _ | _ | _ | _ <;> cases b <;> simp [Starts] at h ⊢

theorem Value.starts_number {v : Value} {c : Char} (hc : c = '-' ∨ c.isDigit = true)
    (h : v.Starts c) : ∃ n, v = .number n := by
  rcases v with _ | (_ | _) | n | _ | _ | _
  case number => exact ⟨n, rfl⟩
  all_goals
    simp only [Starts] at h
    subst h
    simp at hc

theorem Value.starts_string {v : Value} (h : v.Starts '"') : ∃ text, v = .string text := by
  rcases v with _ | (_ | _) | _ | _ | _ | _ <;> simp [Starts] at h ⊢

theorem Value.starts_array {v : Value} (h : v.Starts '[') : ∃ vs, v = .array vs := by
  rcases v with _ | (_ | _) | _ | _ | _ | _ <;> simp [Starts] at h ⊢

theorem Value.starts_object {v : Value} (h : v.Starts '{') : ∃ ms, v = .object ms := by
  rcases v with _ | (_ | _) | _ | _ | _ | _ <;> simp [Starts] at h ⊢

theorem Reads.starts_cons {v : Value} {c : Char} {text rest : List Char}
    (h : Reads (.value v) (c :: text) rest) : v.Starts c := by
  obtain ⟨d, more, htext, hd⟩ := h.starts
  rw [(List.cons.inj htext).1]
  exact hd

theorem Reads.unique {part : Part} {text rest : List Char} (h : Reads part text rest) :
    part.Unique text rest := by
  induction h with
  | null rest =>
    intro _ v' rest' h' _
    obtain rfl := Value.starts_null h'.starts_cons
    exact ⟨rfl, List.append_cancel_left (reads_null h')⟩
  | bool b rest =>
    intro _ v' rest' h' _
    have hstarts : v'.Starts (if b then 't' else 'f') := by
      cases b <;> exact h'.starts_cons
    obtain rfl := Value.starts_bool hstarts
    exact ⟨rfl, List.append_cancel_left (reads_bool h')⟩
  | number n rest =>
    intro hends v' rest' h' hends'
    obtain ⟨c, more, htext, hc⟩ := n.head
    have hstarts : v'.Starts c := by
      rw [htext] at h'
      exact h'.starts_cons
    obtain ⟨n', rfl⟩ := Value.starts_number hc hstarts
    obtain ⟨rfl, hrest⟩ := Number.unique hends hends' (reads_number h')
    exact ⟨rfl, hrest⟩
  | string h =>
    intro _ v' rest' h' _
    obtain ⟨text', rfl⟩ := Value.starts_string h'.starts_cons
    cases h' with
    | string h' =>
      obtain ⟨rfl, hrest⟩ := h.unique h'
      exact ⟨rfl, hrest⟩
  | array h ih =>
    intro _ v' rest' h' _
    obtain ⟨vs', rfl⟩ := Value.starts_array h'.starts_cons
    cases h' with
    | array h' =>
      obtain ⟨rfl, hrest⟩ := ih _ _ h'
      exact ⟨rfl, hrest⟩
  | object h ih =>
    intro _ v' rest' h' _
    obtain ⟨ms', rfl⟩ := Value.starts_object h'.starts_cons
    cases h' with
    | object h' =>
      obtain ⟨rfl, hrest⟩ := ih _ _ h'
      exact ⟨rfl, hrest⟩
  | noItem hclose =>
    intro vs' rest' h'
    cases h' with
    | noItem hclose' => exact ⟨rfl, (hclose.unique hclose' rfl rfl).2⟩
    | item hopens h' hmore' =>
      obtain ⟨c, tail, rfl, hc⟩ := h'.starts
      exact (hopens.not_close hclose hc.not_blank rfl hc.not_close (by decide)).elim
  | item hopens h hmore ih ihmore =>
    intro vs' rest' h'
    obtain ⟨c, tail, rfl, hc⟩ := h.starts
    cases h' with
    | noItem hclose =>
      exact (hopens.not_close hclose hc.not_blank rfl hc.not_close (by decide)).elim
    | item hopens' h' hmore' =>
      obtain ⟨c', tail', rfl, hc'⟩ := h'.starts
      obtain ⟨rfl, rfl⟩ := hopens.unique hopens' hc.not_blank hc'.not_blank
      obtain ⟨rfl, rfl⟩ := ih hmore.items_ends _ _ h' hmore'.items_ends
      obtain ⟨rfl, hrest⟩ := ihmore _ _ hmore'
      exact ⟨rfl, hrest⟩
  | noMember hclose =>
    intro ms' rest' h'
    cases h' with
    | noMember hclose' => exact ⟨rfl, (hclose.unique hclose' rfl rfl).2⟩
    | member hopens hname hcolon hnext h' hmore' =>
      exact (hopens.not_close hclose rfl rfl (by decide) (by decide)).elim
  | member hopens hname hcolon hnext h hmore ih ihmore =>
    intro ms' rest' h'
    cases h' with
    | noMember hclose => exact (hopens.not_close hclose rfl rfl (by decide) (by decide)).elim
    | member hopens' hname' hcolon' hnext' h' hmore' =>
      obtain ⟨-, rfl⟩ := hopens.unique hopens' rfl rfl
      obtain ⟨rfl, rfl⟩ := hname.unique hname'
      obtain ⟨-, rfl⟩ := hcolon.unique hcolon' rfl rfl
      obtain ⟨c, tail, rfl, hc⟩ := h.starts
      obtain ⟨c', tail', rfl, hc'⟩ := h'.starts
      obtain ⟨rfl, rfl⟩ := hnext.unique hnext' hc.not_blank hc'.not_blank
      obtain ⟨rfl, rfl⟩ := ih hmore.members_ends _ _ h' hmore'.members_ends
      obtain ⟨rfl, hrest⟩ := ihmore _ _ hmore'
      exact ⟨rfl, hrest⟩

/-- A text says one value at most. -/
theorem Document.unique {v v' : Value} {text : List Char} (h : Document v text)
    (h' : Document v' text) : v = v' := by
  obtain ⟨next, rest, hnext, hreads, hrest⟩ := h
  obtain ⟨next', rest', hnext', hreads', hrest'⟩ := h'
  obtain ⟨c, tail, rfl, hc⟩ := hreads.starts
  obtain ⟨c', tail', rfl, hc'⟩ := hreads'.starts
  obtain ⟨rfl, rfl⟩ := hnext.unique hnext' hc.not_blank hc'.not_blank
  have hends : Ends ([] : List Char) := by simp [Ends]
  exact (hreads.unique (hrest.ends hends) v' rest' hreads' (hrest'.ends hends)).1

/-! ### Every value is said by some text -/

/-- A character of a string, escaped where it has to be. -/
def escaped (c : Char) : List Char :=
  match c with
  | '"' => ['\\', '"']
  | '\\' => ['\\', '\\']
  | '\x08' => ['\\', 'b']
  | '\x0c' => ['\\', 'f']
  | '\n' => ['\\', 'n']
  | '\r' => ['\\', 'r']
  | '\t' => ['\\', 't']
  | c =>
    if 0x20 ≤ c.toNat then [c]
    else ['\\', 'u', '0', '0', Text.hexDigit (c.toNat / 16), Text.hexDigit (c.toNat % 16)]

def quoted (text : String) : List Char := '"' :: (text.toList.flatMap escaped ++ ['"'])

/-- The next item, after a comma where it is not the first one. -/
def separator (first : Bool) : List Char := if first then [] else [',']

mutual

/-- The text of a value without any blanks. -/
def compact : Value → List Char
  | .null => "null".toList
  | .bool b => (if b then "true" else "false").toList
  | .number n => n.text
  | .string text => quoted text
  | .array vs => '[' :: compactItems true vs
  | .object ms => '{' :: compactMembers true ms

def compactItems : Bool → List Value → List Char
  | _, [] => [']']
  | first, v :: vs => separator first ++ compact v ++ compactItems false vs

def compactMembers : Bool → List (String × Value) → List Char
  | _, [] => ['}']
  | first, (name, v) :: ms =>
    separator first ++ quoted name ++ ':' :: compact v ++ compactMembers false ms

end

theorem hexDigit_of_digit : ∀ n < 16, hexDigit (Text.hexDigit n) = some n := by
  decide

theorem readUnit_byte {n : ℕ} (hn : n < 256) (text : List Char) :
    readUnit ('0' :: '0' :: Text.hexDigit (n / 16) :: Text.hexDigit (n % 16) :: text) =
      some (n, text) := by
  have hzero : hexDigit '0' = some 0 := rfl
  have hhigh := hexDigit_of_digit (n / 16) (by omega)
  have hlow := hexDigit_of_digit (n % 16) (by omega)
  have hvalue : 16 * (n / 16) + n % 16 = n := Nat.div_add_mod n 16
  simp [readUnit, hzero, hhigh, hlow, hvalue]

theorem chars_escaped {c : Char} {cs text rest : List Char} (h : Chars cs text rest) :
    Chars (c :: cs) (escaped c ++ text) rest := by
  unfold escaped
  split
  case h_8 hquote hescape _ _ _ _ _ =>
    split
    · rename_i hcontrol
      exact .plain hquote hescape hcontrol h
    · rename_i hcontrol
      refine .escape ?_ h
      have hunit := readUnit_byte (n := c.toNat) (by omega) text
      have hsmall : c.toNat < 0xd800 := by omega
      simp [readEscape, hunit, hsmall, Char.ofNat_toNat]
  all_goals exact .escape rfl h

theorem chars_quoted (cs rest : List Char) : Chars cs (cs.flatMap escaped ++ '"' :: rest) rest := by
  induction cs with
  | nil => exact .close rest
  | cons c cs ih =>
    rw [List.flatMap_cons, List.append_assoc]
    exact chars_escaped ih

theorem opens_separator (first : Bool) (text : List Char) :
    Opens first (separator first ++ text) text := by
  have hspace : ∀ rest : List Char, Space rest rest := fun rest => ⟨[], rfl, by simp⟩
  cases first with
  | true => exact hspace text
  | false => exact ⟨text, hspace _, hspace _⟩

mutual

theorem reads_compact : ∀ (v : Value) (rest : List Char), Reads (.value v) (compact v ++ rest) rest
  | .null, rest => .null rest
  | .bool b, rest => .bool b rest
  | .number n, rest => .number n rest
  | .string text, rest => by
    have hchars := chars_quoted text.toList rest
    simpa [compact, quoted] using Reads.string hchars
  | .array vs, rest => .array (reads_compactItems true vs rest)
  | .object ms, rest => .object (reads_compactMembers true ms rest)

theorem reads_compactItems : ∀ (first : Bool) (vs : List Value) (rest : List Char),
    Reads (.items first vs) (compactItems first vs ++ rest) rest
  | first, [], rest => .noItem ⟨[], rfl, by simp⟩
  | first, v :: vs, rest => by
    have hmore := reads_compactItems false vs rest
    have hopens := opens_separator first (compact v ++ (compactItems false vs ++ rest))
    simpa [compactItems] using Reads.item hopens (reads_compact v _) hmore

theorem reads_compactMembers : ∀ (first : Bool) (ms : List (String × Value)) (rest : List Char),
    Reads (.members first ms) (compactMembers first ms ++ rest) rest
  | first, [], rest => .noMember ⟨[], rfl, by simp⟩
  | first, (name, v) :: ms, rest => by
    have hmore := reads_compactMembers false ms rest
    let after := compact v ++ (compactMembers false ms ++ rest)
    have hname := chars_quoted name.toList (':' :: after)
    have hopens := opens_separator first (quoted name ++ ':' :: after)
    have hreads := Reads.member (by simpa [quoted] using hopens) hname ⟨[], rfl, by simp⟩
      ⟨[], rfl, by simp⟩ (reads_compact v _) hmore
    simpa [compactMembers, quoted] using hreads

end

theorem document_compact (v : Value) : Document v (compact v) := by
  have hreads := reads_compact v []
  rw [List.append_nil] at hreads
  exact ⟨compact v, [], ⟨[], rfl, by simp⟩, hreads, ⟨[], rfl, by simp⟩⟩

end Json
