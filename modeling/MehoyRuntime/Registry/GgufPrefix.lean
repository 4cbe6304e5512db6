import MehoyRuntime.Registry.GgufRoundTrip

/-!
# GGUF parsing is exact about its prefix

What a run of the parser read decides its result: on a source with the same bytes it goes
the same way, and on one that ends before the last of them it reports truncation.
-/

namespace MehoyRuntime.Registry
open MehoyRuntime.Core LittleEndian KeyedTable
open Budgeted

/-- The sources agree from `start` up to `stop`. -/
def Agree (source source' : Source) (start stop : ℕ) : Prop :=
  ∀ i, start ≤ i → i < stop → source i = source' i

/-- The same reader on another source. -/
def Budgeted.on (s : Budgeted) (source : Source) : Budgeted := { s with source }

/-- What the run of `m` from `s` to `s'` with the result `a` says about other sources. -/
structure ExactRun {α : Type} (m : Parse α) (s : Budgeted) (a : α) (s' : Budgeted) : Prop where
  source : s'.source = s.source
  forward : s.position ≤ s'.position
  same : ∀ source, Agree source s.source s.position s'.position →
    m (s.on source) = .ok a (s'.on source)
  cut : ∀ source k, s.position ≤ k → k < s'.position → Agree source s.source s.position k →
    source k = .eof → ∃ what t, m (s.on source) = .error (.truncated what) t

def Exact {α : Type} (m : Parse α) : Prop := ∀ s a s', m s = .ok a s' → ExactRun m s a s'

variable {α β : Type}

theorem Agree.mono {source source' : Source} {start start' stop stop' : ℕ}
    (h : Agree source source' start stop) (hstart : start ≤ start') (hstop : stop' ≤ stop) :
    Agree source source' start' stop' :=
  fun i hi hi' => h i (hstart.trans hi) (Nat.lt_of_lt_of_le hi' hstop)

theorem bind_ok {m : Parse α} {f : α → Parse β} {s s' : Budgeted} {b : β}
    (h : (m >>= f) s = .ok b s') : ∃ a t, m s = .ok a t ∧ f a t = .ok b s' := by
  have hbind : EStateM.bind m f s = .ok b s' := h
  unfold EStateM.bind at hbind
  cases hm : m s with
  | ok a t =>
    rw [hm] at hbind
    exact ⟨a, t, rfl, hbind⟩
  | error e t =>
    rw [hm] at hbind
    cases hbind

theorem bind_of_ok {m : Parse α} {f : α → Parse β} {s t : Budgeted} {a : α} (h : m s = .ok a t) :
    (m >>= f) s = f a t := by
  change EStateM.bind m f s = _
  rw [EStateM.bind, h]

theorem bind_of_error {m : Parse α} {f : α → Parse β} {s t : Budgeted} {e : GgufError}
    (h : m s = .error e t) : (m >>= f) s = .error e t := by
  change EStateM.bind m f s = _
  rw [EStateM.bind, h]

theorem Exact.bind {m : Parse α} {f : α → Parse β} (hm : Exact m) (hf : ∀ a, Exact (f a)) :
    Exact (m >>= f) := by
  intro s b s' hrun
  obtain ⟨a, t, hmrun, hfrun⟩ := bind_ok hrun
  have hfirst := hm s a t hmrun
  have hsecond := hf a t b s' hfrun
  have hagree (source : Source) {stop : ℕ} (h : Agree source s.source s.position stop) :
      Agree source t.source t.position stop := by
    rw [hfirst.source]
    exact h.mono hfirst.forward (Nat.le_refl _)
  constructor
  case source => exact hsecond.source.trans hfirst.source
  case forward => exact hfirst.forward.trans hsecond.forward
  case same =>
    intro source h
    rw [bind_of_ok (hfirst.same source (h.mono (Nat.le_refl _) hsecond.forward))]
    exact hsecond.same source (hagree source h)
  case cut =>
    intro source k hlow hhigh h heof
    by_cases hk : k < t.position
    · -- The source ends within what the first part reads.
      obtain ⟨what, u, herror⟩ := hfirst.cut source k hlow hk h heof
      exact ⟨what, u, bind_of_error herror⟩
    · have hread : t.position ≤ k := Nat.le_of_not_lt hk
      rw [bind_of_ok (hfirst.same source (h.mono (Nat.le_refl _) hread))]
      exact hsecond.cut source k hread hhigh (hagree source h) heof

/-- What reads nothing. -/
theorem Exact.still {m : Parse α} (h : ∀ s a s', m s = .ok a s' → s'.source = s.source ∧
    s'.position = s.position ∧ ∀ source, m (s.on source) = .ok a (s'.on source)) : Exact m := by
  intro s a s' hrun
  obtain ⟨hsource, hposition, hsame⟩ := h s a s' hrun
  refine ⟨hsource, Nat.le_of_eq hposition.symm, fun source _ => hsame source, ?_⟩
  intro source k hlow hhigh
  omega

theorem Exact.pure (a : α) : Exact (Pure.pure a) := by
  apply Exact.still
  rintro s b s' h
  cases h
  exact ⟨rfl, rfl, fun _ => rfl⟩

theorem Exact.throw (e : GgufError) : Exact (MonadExcept.throw e : Parse α) := by
  intro s a s' h
  cases h

theorem Exact.map {m : Parse α} (hm : Exact m) (f : α → β) :
    Exact (m >>= fun a => Pure.pure (f a)) :=
  hm.bind fun a => .pure (f a)

theorem Exact.ite {c : Prop} [Decidable c] {m m' : Parse α} (hm : Exact m) (hm' : Exact m') :
    Exact (if c then m else m') := by
  split
  · exact hm
  · exact hm'

theorem exact_record (f : Work → Work) : Exact (record f) := by
  apply Exact.still
  rintro s a s' h
  cases h
  exact ⟨rfl, rfl, fun _ => rfl⟩

theorem exact_bounded (what : String) (value limit : ℕ) : Exact (bounded what value limit) :=
  .ite (.throw _) (.pure ())

theorem exact_remaining : Exact (fun s => .ok s.remaining s : Parse ℕ) := by
  apply Exact.still
  rintro s a s' h
  cases h
  exact ⟨rfl, rfl, fun _ => rfl⟩

/-! ### The budgeted reader -/

theorem exact_take (amount : ℕ) (what : String) : Exact (take amount what) := by
  apply Exact.still
  intro s a s' h
  unfold take at h ⊢
  by_cases hle : amount ≤ s.remaining
  · rw [if_pos hle] at h
    cases h
    exact ⟨rfl, rfl, fun _ => if_pos hle⟩
  · rw [if_neg hle] at h
    cases h

theorem exact_byte (what : String) (n : ℕ) (buf : List UInt8)
    (ih : ∀ buf, Exact (readExactOrTruncated what n buf)) :
    Exact (readExactOrTruncated what (n + 1) buf) := by
  intro s a s' hrun
  have hrest : ∃ b, s.source s.position = .byte b ∧
      readExactOrTruncated what n (buf ++ [b]) { s with position := s.position + 1 } = .ok a s' := by
    unfold readExactOrTruncated at hrun
    cases hbyte : s.source s.position with
    | byte b =>
      simp only [hbyte] at hrun
      exact ⟨b, rfl, hrun⟩
    | eof | failed =>
      simp only [hbyte] at hrun
      cases hrun
  obtain ⟨b, hbyte, hrest⟩ := hrest
  have hexact := ih _ _ _ _ hrest
  have hbefore : s.position < s'.position := hexact.forward
  -- A source that agrees beyond this byte has it too.
  have hread (source : Source) (stop : ℕ) (hstop : s.position < stop)
      (h : Agree source s.source s.position stop) :
      readExactOrTruncated what (n + 1) buf (s.on source) =
        readExactOrTruncated what n (buf ++ [b])
          (Budgeted.on { s with position := s.position + 1 } source) := by
    have hsame : source s.position = .byte b := (h _ (Nat.le_refl _) hstop).trans hbyte
    rw [readExactOrTruncated]
    simp only [Budgeted.on, hsame]
  constructor
  case source => exact hexact.source
  case forward => omega
  case same =>
    intro source h
    rw [hread source _ hbefore h]
    exact hexact.same source (h.mono (Nat.le_succ _) (Nat.le_refl _))
  case cut =>
    intro source k hlow hhigh h heof
    by_cases hk : k = s.position
    · subst hk
      refine ⟨what, s.on source, ?_⟩
      rw [readExactOrTruncated]
      simp only [Budgeted.on, heof]
    · have hbeyond : s.position < k := by omega
      rw [hread source k hbeyond h]
      exact hexact.cut source k hbeyond hhigh (h.mono (Nat.le_succ _) (Nat.le_refl _)) heof

theorem exact_readExact (what : String) (n : ℕ) (buf : List UInt8) :
    Exact (readExactOrTruncated what n buf) := by
  induction n generalizing buf with
  | zero => exact .pure buf
  | succ n ih => exact exact_byte what n buf ih

theorem exact_number (width : ℕ) (what : String) : Exact (number width what) :=
  (exact_take width what).bind fun _ => (exact_readExact what width []).map leNat

theorem exact_u8 (what : String) : Exact (u8 what) := (exact_number 1 what).map _
theorem exact_u16 (what : String) : Exact (u16 what) := (exact_number 2 what).map _
theorem exact_u32 (what : String) : Exact (u32 what) := (exact_number 4 what).map _
theorem exact_u64 (what : String) : Exact (u64 what) := (exact_number 8 what).map _

theorem exact_stringContents (len : ℕ) (what : String) : Exact (stringContents len what) := by
  refine exact_remaining.bind fun budget => (exact_take _ _).bind fun _ => .ite (.throw _) ?_
  refine (exact_record _).bind fun _ => (exact_readExact what len []).bind fun buf => ?_
  cases Utf8.textOf buf with
  | some text => exact .pure text
  | none => exact .throw _

theorem exact_string (what : String) : Exact (string what) :=
  (exact_u64 what).bind fun _ => (exact_bounded _ _ _).bind fun _ => exact_stringContents _ what

/-! ### Values -/

theorem exact_elements {readElement : Parse MetadataValue} (h : Exact readElement) (retain : Bool)
    (n : ℕ) (retained : List MetadataValue) :
    Exact (readElements readElement retain n retained) := by
  induction n generalizing retained with
  | zero => exact .pure retained
  | succ n ih =>
    refine (exact_record _).bind fun _ => h.bind fun value => .ite ?_ (ih retained)
    exact (exact_record _).bind fun _ => ih (retained ++ [value])

theorem exact_array {readElement : UInt32 → Parse MetadataValue}
    (h : ∀ elementType, Exact (readElement elementType)) (depth : ℕ) :
    Exact (readArray depth readElement) := by
  refine (exact_record _).bind fun _ => (exact_u32 _).bind fun elementType =>
    (exact_u64 _).bind fun len => (exact_bounded _ _ _).bind fun _ =>
      (exact_elements (h elementType) _ _ _).bind fun retained => .ite ?_ (.pure _)
  exact (exact_record _).bind fun _ => .pure _

theorem exact_typed {array : Parse MetadataValue} (harray : Exact array) (typeId : UInt32) :
    Exact (readTyped array typeId) := by
  unfold readTyped
  split
  case h_1 | h_2 | h_8 => exact (exact_u8 _).map _
  case h_3 | h_4 => exact (exact_u16 _).map _
  case h_5 | h_6 | h_7 => exact (exact_u32 _).map _
  case h_9 => exact (exact_string _).map _
  case h_10 => exact harray
  case h_11 | h_12 | h_13 => exact (exact_u64 _).map _
  case h_14 => exact .throw _

theorem exact_value (levels : ℕ) (typeId : UInt32) : Exact (readValue levels typeId) := by
  induction levels generalizing typeId with
  | zero => exact exact_typed (.throw _) typeId
  | succ levels ih => exact exact_typed (exact_array ih _) typeId

/-! ### Headers -/

theorem exact_entries (n : ℕ) (metadata : Table String MetadataValue) :
    Exact (readEntries n metadata) := by
  induction n generalizing metadata with
  | zero => exact .pure metadata
  | succ n ih =>
    exact (exact_record _).bind fun _ => (exact_string _).bind fun key =>
      (exact_u32 _).bind fun typeId => (exact_value _ typeId).bind fun value =>
        (exact_record _).bind fun _ => ih (metadata.insert key value)

theorem exact_header : Exact readHeader := by
  refine (exact_take _ _).bind fun _ => (exact_readExact _ _ _).bind fun magic =>
    .ite (.throw _) ?_
  refine (exact_u32 _).bind fun version => .ite (.throw _) ?_
  refine (exact_u64 _).bind fun tensorCount => (exact_bounded _ _ _).bind fun _ =>
    (exact_u64 _).bind fun metadataCount => (exact_bounded _ _ _).bind fun _ => ?_
  exact (exact_entries _ _).map _

theorem ofBytes_agree {bytes other : List UInt8} {n : ℕ} (h : other.take n = bytes.take n) :
    Agree (.ofBytes other) (.ofBytes bytes) 0 n := by
  intro i _ hi
  have hbyte : other[i]? = bytes[i]? := by
    rw [← List.getElem?_take_of_lt hi, h, List.getElem?_take_of_lt hi]
  simp only [Source.ofBytes, hbyte]

theorem ofBytes_end {bytes : List UInt8} {k : ℕ} (h : bytes.length ≤ k) :
    Source.ofBytes bytes k = .eof := by
  simp only [Source.ofBytes, List.getElem?_eq_none h]

/-- A run that succeeds has read bytes that are there. -/
theorem ExactRun.within {m : Parse α} {bytes : List UInt8} {s s' : Budgeted} {a : α}
    (h : ExactRun m s a s') (hrun : m s = .ok a s') (hsource : s.source = .ofBytes bytes)
    (hstart : s.position ≤ bytes.length) : s'.position ≤ bytes.length := by
  by_contra hover
  have heof : s.source bytes.length = .eof := by
    rw [hsource]
    exact ofBytes_end (Nat.le_refl _)
  obtain ⟨what, t, herror⟩ :=
    h.cut s.source bytes.length hstart (Nat.lt_of_not_le hover) (fun _ _ _ => rfl) heof
  have hsame : m s = .error (.truncated what) t := herror
  rw [hrun] at hsame
  cases hsame

/-- The bytes that were read decide the parse: it is the same wherever they come first, and
each strict prefix of them is truncated. -/
theorem parse_exact_prefix {bytes : List UInt8} {header : GgufHeader} {s : Budgeted}
    (h : parse (.ofBytes bytes) = .ok header s) :
    s.position ≤ bytes.length ∧
    (∀ other, bytes.take s.position <+: other →
      ∃ t, parse (.ofBytes other) = .ok header t ∧ t.position = s.position) ∧
    ∀ k < s.position, ∃ what t, parse (.ofBytes (bytes.take k)) = .error (.truncated what) t := by
  have hexact : ExactRun readHeader (.new (.ofBytes bytes) MAX_HEADER_BYTES) header s :=
    exact_header _ _ _ h
  have hread : s.position ≤ bytes.length := hexact.within h rfl (Nat.zero_le _)
  refine ⟨hread, ?_, ?_⟩
  · intro other hprefix
    have hsame : other.take s.position = bytes.take s.position := by
      rw [List.prefix_iff_eq_take, List.length_take, Nat.min_eq_left hread] at hprefix
      exact hprefix.symm
    exact ⟨s.on (.ofBytes other), hexact.same _ (ofBytes_agree hsame), rfl⟩
  · intro k hk
    have hsame : (bytes.take k).take k = bytes.take k := by rw [List.take_take, Nat.min_self]
    have hend : Source.ofBytes (bytes.take k) k = .eof := ofBytes_end (List.length_take_le k bytes)
    exact hexact.cut _ k (Nat.zero_le k) hk (ofBytes_agree hsame) hend

theorem parse_exact_prefix_sample :
    ∃ header s, parse (.ofBytes (sampleHeader.encode ++ [0xff])) = .ok header s ∧
      s.position = 180 ∧
      (∃ t, parse (.ofBytes sampleHeader.encode) = .ok header t ∧ t.position = 180) ∧
      ∀ k < 180, ∃ what t,
        parse (.ofBytes ((sampleHeader.encode ++ [0xff]).take k)) = .error (.truncated what) t := by
  have hsize : sampleHeader.encode.length ≤ MAX_HEADER_BYTES := by
    rw [sampleHeader_length]
    decide
  obtain ⟨s, hrun, -, hposition, -⟩ :=
    parses_header sampleHeader_fits _ (next_ofBytes sampleHeader.encode [0xff] _) hsize
  have hread : s.position = 180 := by
    rw [hposition, sampleHeader_length]
    rfl
  obtain ⟨-, hsame, hcut⟩ := parse_exact_prefix hrun
  rw [hread] at hsame hcut
  refine ⟨_, s, hrun, hread, hsame _ ?_, hcut⟩
  have htake : (sampleHeader.encode ++ [0xff]).take 180 = sampleHeader.encode := by
    rw [← sampleHeader_length, List.take_left]
  exact ⟨[], by rw [htake, List.append_nil]⟩

end MehoyRuntime.Registry
