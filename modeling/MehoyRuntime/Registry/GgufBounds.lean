import MehoyRuntime.Lib.Ensures
import MehoyRuntime.Registry.Gguf

/-!
# GGUF parsing is bounded

Any source, any result. What is not yet charged to the budget, and the bytes read beyond
the turns taken and the values kept, are carried through the parser from step to step.
-/

namespace MehoyRuntime.Registry
open MehoyRuntime.Core LittleEndian KeyedTable StateError
open Budgeted

/-- `owed` bytes are charged and not yet read; `turns` and `kept` are the bytes read beyond
the turns taken and the values kept. -/
structure Within (owed turns kept : ℕ) (s : Budgeted) : Prop where
  charged : s.position + owed + s.remaining ≤ MAX_HEADER_BYTES
  turns : s.work.iterations + turns ≤ s.position
  kept : s.work.retained + kept ≤ s.position
  buffers : ∀ buffer ∈ s.work.buffers, buffer.1 ≤ min MAX_STRING_BYTES buffer.2
  deepest : s.work.deepest ≤ MAX_ARRAY_DEPTH
  widest : s.work.widest ≤ MAX_RETAINED_ARRAY_LEN

theorem Within.mono {owed turns kept owed' turns' kept' : ℕ} {s : Budgeted}
    (h : Within owed turns kept s) (howed : owed' ≤ owed) (hturns : turns' ≤ turns)
    (hkept : kept' ≤ kept) : Within owed' turns' kept' s where
  charged := by
    have := h.charged
    omega
  turns := Nat.le_trans (Nat.add_le_add_left hturns _) h.turns
  kept := Nat.le_trans (Nat.add_le_add_left hkept _) h.kept
  buffers := h.buffers
  deepest := h.deepest
  widest := h.widest

/-- An error leaves the bounds in place, and is never an overflow. -/
def Failed (e : GgufError) (s : Budgeted) : Prop := (∀ what, e ≠ .overflow what) ∧ Within 0 0 0 s

theorem Within.failed {owed turns kept : ℕ} {s : Budgeted} {e : GgufError}
    (h : Within owed turns kept s) (he : ∀ what, e ≠ .overflow what) : Failed e s :=
  ⟨he, h.mono (Nat.zero_le _) (Nat.zero_le _) (Nat.zero_le _)⟩

/-- `m` reads so many bytes beyond the turns it takes, and beyond the values it keeps. -/
def Charges {α : Type} (m : Parse α) (n : ℕ) : Prop :=
  ∀ turns kept,
    Ensures (Within 0 turns kept) m (fun _ => Within 0 (turns + n) (kept + n)) Failed

variable {α β : Type}

theorem Charges.bind {m : Parse α} {f : α → Parse β} {a b : ℕ} (hm : Charges m a)
    (hf : ∀ x, Charges (f x) b) : Charges (m >>= f) (a + b) := by
  intro turns kept
  rw [← Nat.add_assoc, ← Nat.add_assoc]
  exact (hm turns kept).bind fun x => hf x _ _

theorem Charges.pure (x : α) : Charges (Pure.pure x) 0 := fun _ _ => .pure fun _ hs => hs

theorem Charges.map {m : Parse α} {n : ℕ} (hm : Charges m n) (f : α → β) :
    Charges (m >>= fun x => Pure.pure (f x)) n :=
  hm.bind fun x => .pure (f x)

theorem Charges.throw {e : GgufError} (he : ∀ what, e ≠ .overflow what) (n : ℕ) :
    Charges (MonadExcept.throw e : Parse α) n :=
  fun _ _ => .throw fun _ hs => hs.failed he

theorem Charges.le {m : Parse α} {n n' : ℕ} (hm : Charges m n) (h : n' ≤ n) : Charges m n' :=
  fun turns kept => (hm turns kept).weaken (fun _ hs => hs)
    (fun _ _ hs => hs.mono (Nat.le_refl _) (Nat.add_le_add_left h _) (Nat.add_le_add_left h _))
    fun _ _ he => he

theorem ensures_bounded {what : String} {value limit turns kept : ℕ} :
    Ensures (Within 0 turns kept) (bounded what value limit)
      (fun _ s => Within 0 turns kept s ∧ value ≤ limit) Failed := by
  refine .ite (fun _ => ?_) fun hle => ?_
  · exact .throw fun _ hs => hs.failed fun _ h => by cases h
  · exact .pure fun _ hs => ⟨hs, by omega⟩

theorem charges_bounded (what : String) (value limit : ℕ) : Charges (bounded what value limit) 0 :=
  fun _ _ => ensures_bounded.weaken (fun _ hs => hs) (fun _ _ hq => hq.1) fun _ _ he => he

theorem Charges.bounded {what : String} {value limit n : ℕ} {m : Parse α}
    (hm : value ≤ limit → Charges m n) : Charges (bounded what value limit >>= fun _ => m) n :=
  fun turns kept => ensures_bounded.bind fun _ s hs => hm hs.2 turns kept s hs.1

/-! ### The budgeted reader -/

/-- `take` charges before anything is read. -/
theorem ensures_take {amount budget turns kept : ℕ} {what : String} :
    Ensures (fun s => Within 0 turns kept s ∧ s.remaining = budget) (take amount what)
      (fun _ s => Within amount turns kept s ∧ amount ≤ budget) Failed := by
  rintro s ⟨hs, rfl⟩
  unfold take
  by_cases hle : amount ≤ s.remaining
  · rw [if_pos hle]
    refine ⟨{ hs with charged := ?_ }, hle⟩
    have := hs.charged
    simp only
    omega
  · rw [if_neg hle]
    exact hs.failed fun _ h => by cases h

theorem ensures_readExact {what : String} {n : ℕ} {buf : List UInt8} {turns kept : ℕ} :
    Ensures (Within n turns kept) (readExactOrTruncated what n buf)
      (fun _ => Within 0 (turns + n) (kept + n)) Failed := by
  induction n generalizing buf turns kept with
  | zero => exact .pure fun _ hs => hs
  | succ n ih =>
    intro s hs
    unfold readExactOrTruncated
    cases s.source s.position with
    | byte b =>
      have hnext : Within n (turns + 1) (kept + 1) { s with position := s.position + 1 } :=
        { hs with
          charged := by
            have := hs.charged
            simp only
            omega
          turns := Nat.add_le_add_right hs.turns 1
          kept := Nat.add_le_add_right hs.kept 1 }
      rw [Nat.add_comm n, ← Nat.add_assoc turns, ← Nat.add_assoc kept]
      exact ih _ hnext
    | eof => exact hs.failed fun _ h => by cases h
    | failed err => exact hs.failed fun _ h => by cases h

/-- So many bytes, charged and then read. -/
theorem ensures_exact {what : String} {n turns kept : ℕ} {f : List UInt8 → Parse β}
    {Q : β → Budgeted → Prop}
    (hf : ∀ buf, Ensures (Within 0 (turns + n) (kept + n)) (f buf) Q Failed) :
    Ensures (Within 0 turns kept)
      (take n what >>= fun _ => readExactOrTruncated what n [] >>= f) Q Failed := by
  intro s hs
  refine ensures_take.bind (fun _ => ?_) s ⟨hs, rfl⟩
  refine Ensures.bind ?_ hf
  exact ensures_readExact.weaken (fun _ hs => hs.1) (fun _ _ hs => hs) fun _ _ he => he

theorem charges_number (width : ℕ) (what : String) : Charges (number width what) width :=
  fun _ _ => ensures_exact fun _ => .pure fun _ hs => hs

theorem charges_u8 (what : String) : Charges (u8 what) 1 := (charges_number 1 what).map _
theorem charges_u16 (what : String) : Charges (u16 what) 2 := (charges_number 2 what).map _
theorem charges_u32 (what : String) : Charges (u32 what) 4 := (charges_number 4 what).map _
theorem charges_u64 (what : String) : Charges (u64 what) 8 := (charges_number 8 what).map _

theorem ensures_buffer {len budget turns kept : ℕ} (hlen : len ≤ MAX_STRING_BYTES) :
    Ensures (fun s => Within len turns kept s ∧ len ≤ budget)
      (record fun work => { work with buffers := work.buffers ++ [(len, budget)] })
      (fun _ => Within len turns kept) Failed := by
  rintro s ⟨hs, hbudget⟩
  refine { hs with buffers := fun buffer hbuffer => ?_ }
  rcases List.mem_append.mp hbuffer with hold | hnew
  · exact hs.buffers buffer hold
  · rw [List.mem_singleton.mp hnew]
    exact Nat.le_min.mpr ⟨hlen, hbudget⟩

/-- A length within its limit is charged before there is a buffer for it. -/
theorem charges_stringContents {len : ℕ} {what : String} (hlen : len ≤ MAX_STRING_BYTES) :
    Charges (stringContents len what) len := by
  intro turns kept s hs
  refine ensures_take.bind (fun _ => ?_) s ⟨hs, rfl⟩
  refine .ite (fun hover => ?_) fun _ => ?_
  · have hsmall : usizeMax < MAX_STRING_BYTES := Nat.lt_of_lt_of_le hover hlen
    exact absurd hsmall (by decide)
  · refine (ensures_buffer hlen).bind fun _ => ensures_readExact.bind fun buf => ?_
    cases Utf8.textOf buf with
    | some text => exact .pure fun _ hs => hs
    | none => exact .throw fun _ hs => hs.failed fun _ h => by cases h

theorem charges_string (what : String) : Charges (string what) 8 :=
  (charges_u64 what).bind (b := 0) fun _ =>
    .bounded fun hlen => (charges_stringContents hlen).le (Nat.zero_le _)

/-! ### Values -/

/-- A turn of a loop is paid for by a byte read before it. -/
theorem ensures_turn {turns kept : ℕ} :
    Ensures (Within 0 (turns + 1) kept)
      (record fun work => { work with iterations := work.iterations + 1 })
      (fun _ => Within 0 turns kept) Failed := by
  intro s hs
  refine { hs with turns := ?_ }
  have := hs.turns
  simp only
  omega

theorem ensures_retain {turns kept : ℕ} :
    Ensures (Within 0 turns (kept + 1))
      (record fun work => { work with retained := work.retained + 1 })
      (fun _ => Within 0 turns kept) Failed := by
  intro s hs
  refine { hs with kept := ?_ }
  have := hs.kept
  simp only
  omega

/-- Each element is charged a byte at least, which pays for the next turn. -/
theorem ensures_elements {readElement : Parse MetadataValue} {retain : Bool} {n : ℕ}
    {retained : List MetadataValue} {turns kept : ℕ} (h : Charges readElement 1) :
    Ensures (Within 0 (turns + 1) kept) (readElements readElement retain n retained)
      (fun values s => Within 0 (turns + 1) kept s ∧ values.length ≤ retained.length + n)
      Failed := by
  induction n generalizing retained kept with
  | zero => exact .pure fun _ hs => ⟨hs, Nat.le_refl _⟩
  | succ n ih =>
    refine ensures_turn.bind fun _ => (h turns kept).bind fun value => ?_
    cases retain with
    | false =>
      refine ih.weaken (fun _ hs => hs.mono (Nat.le_refl _) (Nat.le_refl _) (Nat.le_succ _)) ?_ ?_
      · exact fun _ _ hq => ⟨hq.1, Nat.le_succ_of_le hq.2⟩
      · exact fun _ _ he => he
    | true =>
      refine ensures_retain.bind fun _ => ?_
      refine ih.weaken (fun _ hs => hs) ?_ fun _ _ he => he
      rintro values s ⟨hs, hlen⟩
      rw [List.length_append, List.length_singleton, Nat.add_assoc, Nat.add_comm 1] at hlen
      exact ⟨hs, hlen⟩

theorem ensures_deepest {depth turns kept : ℕ} (h : depth < MAX_ARRAY_DEPTH) :
    Ensures (Within 0 turns kept)
      (record fun work => { work with deepest := max work.deepest (depth + 1) })
      (fun _ => Within 0 turns kept) Failed :=
  fun _ hs => { hs with deepest := Nat.max_le.mpr ⟨hs.deepest, h⟩ }

theorem ensures_widest {values : List MetadataValue} {turns kept : ℕ}
    (h : values.length ≤ MAX_RETAINED_ARRAY_LEN) :
    Ensures (Within 0 turns kept)
      (record fun work => { work with widest := max work.widest values.length })
      (fun _ => Within 0 turns kept) Failed :=
  fun _ hs => { hs with widest := Nat.max_le.mpr ⟨hs.widest, h⟩ }

/-- The twelve bytes before the elements pay for the first turn. -/
theorem charges_array {depth : ℕ} {readElement : UInt32 → Parse MetadataValue}
    (hdepth : depth < MAX_ARRAY_DEPTH) (h : ∀ elementType, Charges (readElement elementType) 1) :
    Charges (readArray depth readElement) 1 := by
  intro turns kept
  refine (ensures_deepest hdepth).bind fun _ => (charges_u32 _ _ _).bind fun elementType =>
    (charges_u64 _ _ _).bind fun len => (charges_bounded _ _ _ _ _).bind fun _ => ?_
  have helements (retain : Bool) : Ensures (Within 0 (turns + 4 + 8 + 0) (kept + 4 + 8 + 0))
      (readElements (readElement elementType) retain len.toNat [])
      (fun values s => Within 0 (turns + 1) (kept + 1) s ∧ values.length ≤ [].length + len.toNat)
      Failed :=
    (ensures_elements (h elementType)).weaken
      (fun _ hs => hs.mono (Nat.le_refl _) (by omega) (by omega)) (fun _ _ hq => hq) fun _ _ he => he
  refine (helements _).bind fun values => ?_
  by_cases hretain : min len.toNat usizeMax ≤ MAX_RETAINED_ARRAY_LEN
  · rw [decide_eq_true hretain]
    rintro s ⟨hs, hlen⟩
    have hshort : values.length ≤ MAX_RETAINED_ARRAY_LEN := by
      rw [List.length_nil, Nat.zero_add] at hlen
      simp only [usizeMax, MAX_RETAINED_ARRAY_LEN] at hretain ⊢
      omega
    exact ((ensures_widest hshort).bind fun _ => .pure fun _ hs => hs) s hs
  · rw [decide_eq_false hretain]
    exact .pure fun _ hs => hs.1

/-- Every type of value reads a byte at least. -/
theorem charges_typed {array : Parse MetadataValue} (harray : Charges array 1) (typeId : UInt32) :
    Charges (readTyped array typeId) 1 := by
  have hle2 : 1 ≤ 2 := by decide
  have hle4 : 1 ≤ 4 := by decide
  have hle8 : 1 ≤ 8 := by decide
  unfold readTyped
  split
  case h_1 | h_2 | h_8 => exact (charges_u8 _).map _
  case h_3 | h_4 => exact ((charges_u16 _).map _).le hle2
  case h_5 | h_6 | h_7 => exact ((charges_u32 _).map _).le hle4
  case h_9 => exact ((charges_string _).map _).le hle8
  case h_10 => exact harray
  case h_11 | h_12 | h_13 => exact ((charges_u64 _).map _).le hle8
  case h_14 => exact .throw (fun _ h => by cases h) 1

theorem charges_value {levels : ℕ} (hlevels : levels ≤ MAX_ARRAY_DEPTH) (typeId : UInt32) :
    Charges (readValue levels typeId) 1 := by
  induction levels generalizing typeId with
  | zero => exact charges_typed (.throw (fun _ h => by cases h) 1) typeId
  | succ levels ih =>
    have hdepth : MAX_ARRAY_DEPTH - (levels + 1) < MAX_ARRAY_DEPTH := Nat.sub_lt (by decide) (by omega)
    exact charges_typed (charges_array hdepth (ih (Nat.le_of_succ_le hlevels))) typeId

/-! ### Headers -/

theorem ensures_entries {n : ℕ} {metadata : Table String MetadataValue} {turns kept : ℕ} :
    Ensures (Within 0 (turns + 1) kept) (readEntries n metadata)
      (fun _ => Within 0 (turns + 1) kept) Failed := by
  induction n generalizing metadata with
  | zero => exact .pure fun _ hs => hs
  | succ n ih =>
    refine ensures_turn.bind fun _ => (charges_string _ _ _).bind fun key =>
      (charges_u32 _ _ _).bind fun typeId =>
        (charges_value (Nat.le_refl _) typeId _ _).bind fun value => ?_
    refine Ensures.bind (ensures_retain.weaken (fun _ hs => ?_) (fun _ _ hq => hq) fun _ _ he => he)
      fun _ => ih
    exact hs.mono (Nat.le_refl _) (by omega) (by omega)

theorem ensures_header : Ensures (Within 0 0 0) readHeader (fun _ => Within 0 0 0) Failed := by
  refine ensures_exact fun magic => .ite (fun _ => .throw fun _ hs => hs.failed fun _ h => by cases h)
    fun _ => (charges_u32 _ _ _).bind fun version => ?_
  refine .ite (fun _ => .throw fun _ hs => hs.failed fun _ h => by cases h) fun _ => ?_
  refine (charges_u64 _ _ _).bind fun tensorCount => (charges_bounded _ _ _ _ _).bind fun _ =>
    (charges_u64 _ _ _).bind fun metadataCount => (charges_bounded _ _ _ _ _).bind fun _ => ?_
  refine Ensures.bind (ensures_entries.weaken (fun _ hs => hs) (fun _ _ hq => hq) fun _ _ he => he)
    fun metadata => .pure fun _ hs => ?_
  exact hs.mono (Nat.le_refl _) (Nat.zero_le _) (Nat.zero_le _)

theorem within_new (source : Source) : Within 0 0 0 (.new source MAX_HEADER_BYTES) where
  charged := by
    simp only [Budgeted.new]
    omega
  turns := Nat.le_refl _
  kept := Nat.le_refl _
  buffers := fun _ h => (List.not_mem_nil h).elim
  deepest := Nat.zero_le _
  widest := Nat.zero_le _

/-- What any source can make the parser do. That it ends is the definition's: it is
structural in the counts, which are read before they are counted down, and in the levels
of arrays. -/
theorem parse_bounded (source : Source) :
    ∃ s, ((∃ header, parse source = .ok header s) ∨
        ∃ e, parse source = .error e s ∧ ∀ what, e ≠ .overflow what) ∧
      s.position ≤ MAX_HEADER_BYTES ∧
      (∀ buffer ∈ s.work.buffers, buffer.1 ≤ min MAX_STRING_BYTES buffer.2) ∧
      s.work.deepest ≤ MAX_ARRAY_DEPTH ∧ s.work.widest ≤ MAX_RETAINED_ARRAY_LEN ∧
      s.work.iterations ≤ s.position ∧ s.work.retained ≤ s.position := by
  have hrun := ensures_header _ (within_new source)
  have hbounds (s : Budgeted) (hs : Within 0 0 0 s) : s.position ≤ MAX_HEADER_BYTES ∧
      (∀ buffer ∈ s.work.buffers, buffer.1 ≤ min MAX_STRING_BYTES buffer.2) ∧
      s.work.deepest ≤ MAX_ARRAY_DEPTH ∧ s.work.widest ≤ MAX_RETAINED_ARRAY_LEN ∧
      s.work.iterations ≤ s.position ∧ s.work.retained ≤ s.position :=
    ⟨Nat.le_of_add_right_le hs.charged, hs.buffers, hs.deepest, hs.widest, hs.turns, hs.kept⟩
  unfold parse
  cases hparse : readHeader (.new source MAX_HEADER_BYTES) with
  | ok header s =>
    rw [hparse] at hrun
    exact ⟨s, .inl ⟨header, rfl⟩, hbounds s hrun⟩
  | error e s =>
    rw [hparse] at hrun
    exact ⟨s, .inr ⟨e, rfl, hrun.1⟩, hbounds s hrun.2⟩

end MehoyRuntime.Registry
