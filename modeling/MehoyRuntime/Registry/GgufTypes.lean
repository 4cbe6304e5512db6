import MehoyRuntime.Registry.GgufPrefix

/-!
# The value types a GGUF container declares

Raw containers: any type identifiers, with payloads that only have the size their type
gives them. A value of an unknown type may be any bytes.
-/

namespace MehoyRuntime.Registry
open MehoyRuntime.Core LittleEndian KeyedTable Utf8
open Budgeted

/-! ### Raw containers -/

def Known (typeId : UInt32) : Prop := typeId ≤ 12

instance (typeId : UInt32) : Decidable (Known typeId) := inferInstanceAs (Decidable (typeId ≤ 12))

def fixedWidth (typeId : UInt32) : Option ℕ :=
  match typeId with
  | 0 | 1 | 7 => some 1
  | 2 | 3 => some 2
  | 4 | 5 | 6 => some 4
  | 10 | 11 | 12 => some 8
  | _ => none

inductive RawValue
  | fixed (payload : List UInt8)
  | text (contents : List UInt8)
  | array (elementType : UInt32) (elements : List RawValue)

/-- A type identifier, the place where the first value of the type begins, and how many
values of it follow. -/
structure Declaration where
  typeId : UInt32
  begins : ℕ
  count : ℕ
  deriving DecidableEq, Repr

def Declaration.shift (amount : ℕ) (d : Declaration) : Declaration :=
  { d with begins := amount + d.begins }

@[simp] theorem Declaration.shift_comp (a b : ℕ) : shift b ∘ shift a = shift (b + a) := by
  funext d
  simp [shift, Nat.add_assoc]

/-- A value of an unknown type follows. -/
def Declaration.Blocks (d : Declaration) : Prop := 0 < d.count ∧ ¬ Known d.typeId

def rawText (contents : List UInt8) : List UInt8 := leBytes 8 contents.length ++ contents

namespace RawValue

mutual

def encode : RawValue → List UInt8
  | .fixed payload => payload
  | .text contents => rawText contents
  | .array elementType elements =>
    leBytes 4 elementType.toNat ++ (leBytes 8 elements.length ++ encodeAll elements)

def encodeAll : List RawValue → List UInt8
  | [] => []
  | v :: vs => encode v ++ encodeAll vs

end

mutual

/-- What a value declares itself: the element types of arrays, at any depth. -/
def declarations : RawValue → List Declaration
  | .fixed _ => []
  | .text _ => []
  | .array elementType elements =>
    (⟨elementType, 0, elements.length⟩ :: declarationsAll elements).map (Declaration.shift 12)

def declarationsAll : List RawValue → List Declaration
  | [] => []
  | v :: vs => declarations v ++ (declarationsAll vs).map (Declaration.shift (encode v).length)

end

end RawValue

/-- The value is one of the type, as far as sizes go. -/
inductive Typed : UInt32 → RawValue → Prop
  | fixed {typeId : UInt32} {payload : List UInt8} :
    fixedWidth typeId = some payload.length → Typed typeId (.fixed payload)
  | text {contents : List UInt8} : contents.length < 2 ^ 64 → Typed 8 (.text contents)
  | array {elementType : UInt32} {elements : List RawValue} : elements.length < 2 ^ 64 →
    (∀ v ∈ elements, Typed elementType v) → Typed 9 (.array elementType elements)
  | unknown {typeId : UInt32} {v : RawValue} : ¬ Known typeId → Typed typeId v

structure RawEntry where
  key : List UInt8
  typeId : UInt32
  value : RawValue

def RawEntry.encode (entry : RawEntry) : List UInt8 :=
  rawText entry.key ++ (leBytes 4 entry.typeId.toNat ++ entry.value.encode)

def RawEntry.declarations (entry : RawEntry) : List Declaration :=
  (⟨entry.typeId, 0, 1⟩ :: entry.value.declarations).map
    (Declaration.shift ((rawText entry.key).length + 4))

def RawEntry.Typed (entry : RawEntry) : Prop :=
  entry.key.length < 2 ^ 64 ∧ Registry.Typed entry.typeId entry.value

structure RawContainer where
  version : UInt32
  tensorCount : UInt64
  entries : List RawEntry

namespace RawContainer

def encodeEntries : List RawEntry → List UInt8
  | [] => []
  | entry :: rest => entry.encode ++ encodeEntries rest

def entryDeclarations : List RawEntry → List Declaration
  | [] => []
  | entry :: rest =>
    entry.declarations ++ (entryDeclarations rest).map (Declaration.shift entry.encode.length)

def encode (c : RawContainer) : List UInt8 :=
  MAGIC ++ (leBytes 4 c.version.toNat ++ (leBytes 8 c.tensorCount.toNat ++
    (leBytes 8 c.entries.length ++ encodeEntries c.entries)))

/-- Every type identifier in the container, at any nesting depth. -/
def declarations (c : RawContainer) : List Declaration :=
  (entryDeclarations c.entries).map (Declaration.shift 24)

def Typed (c : RawContainer) : Prop :=
  c.entries.length < 2 ^ 64 ∧ ∀ entry ∈ c.entries, entry.Typed

end RawContainer

/-! ### Reading a raw container -/

/-- Rejected for a type that is not known. -/
def Refused (e : GgufError) : Prop := ∃ typeId, ¬ Known typeId ∧ e = .unknownValueType typeId

/-- On these bytes, `m` takes all of them and meets no value of an unknown type, or it fails
on them: for such a value, or no later than where the first of them begins. -/
def Meets {α : Type} (m : Parse α) (bytes : List UInt8) (declared : List Declaration)
    (Q : α → Prop) : Prop :=
  ∀ s, Next s bytes →
    match m s with
    | .ok a s' => Q a ∧ s'.source = s.source ∧ s'.position = s.position + bytes.length ∧
      ∀ d ∈ declared, ¬ d.Blocks
    | .error e s' => s'.position ≤ s.position + bytes.length ∧
      (Refused e ∨ ∀ d ∈ declared, d.Blocks → s'.position ≤ s.position + d.begins)

variable {α β : Type} {m : Parse α} {f : α → Parse β} {b b' : List UInt8}
  {declared declared' : List Declaration} {P : α → Prop} {Q : β → Prop}

theorem Meets.bind (hm : Meets m b declared P) (hf : ∀ a, P a → Meets (f a) b' declared' Q) :
    Meets (m >>= f) (b ++ b') (declared ++ declared'.map (Declaration.shift b.length)) Q := by
  intro s hnext
  have hfirst := hm s hnext.left
  cases hrun : m s with
  | error e t =>
    rw [hrun] at hfirst
    obtain ⟨hposition, herror⟩ := hfirst
    rw [bind_of_error hrun]
    refine ⟨?_, herror.imp_right fun hbefore d hd hblocks => ?_⟩
    · rw [List.length_append]
      omega
    · rcases List.mem_append.mp hd with hd | hd
      · exact hbefore d hd hblocks
      · obtain ⟨d', -, rfl⟩ := List.mem_map.mp hd
        simp only [Declaration.shift]
        omega
  | ok a t =>
    rw [hrun] at hfirst
    obtain ⟨ha, hsource, hposition, hknown⟩ := hfirst
    have hsecond := hf a ha t (hnext.right hsource hposition)
    rw [bind_of_ok hrun]
    cases hrun' : f a t with
    | error e u =>
      rw [hrun'] at hsecond
      obtain ⟨hlast, herror⟩ := hsecond
      refine ⟨?_, herror.imp_right fun hbefore d hd hblocks => ?_⟩
      · rw [List.length_append]
        omega
      · rcases List.mem_append.mp hd with hd | hd
        · exact absurd hblocks (hknown d hd)
        · obtain ⟨d', hd', rfl⟩ := List.mem_map.mp hd
          have hlate := hbefore d' hd' hblocks
          simp only [Declaration.shift]
          omega
    | ok c u =>
      rw [hrun'] at hsecond
      obtain ⟨hc, hsource', hlast, hknown'⟩ := hsecond
      refine ⟨hc, hsource'.trans hsource, ?_, fun d hd => ?_⟩
      · rw [hlast, hposition, List.length_append, Nat.add_assoc]
      · rcases List.mem_append.mp hd with hd | hd
        · exact hknown d hd
        · obtain ⟨d', hd', rfl⟩ := List.mem_map.mp hd
          exact hknown' d' hd'

/-- Declarations that say no more than those that were met. -/
theorem Meets.weaken (hm : Meets m b declared P)
    (h : ∀ d ∈ declared', d.Blocks → ∃ d' ∈ declared, d'.Blocks ∧ d'.begins ≤ d.begins) :
    Meets m b declared' P := by
  intro s hnext
  have hrun := hm s hnext
  cases hms : m s with
  | error e t =>
    rw [hms] at hrun
    refine ⟨hrun.1, hrun.2.imp_right fun hbefore d hd hblocks => ?_⟩
    obtain ⟨d', hd', hblocks', hle⟩ := h d hd hblocks
    have hlate := hbefore d' hd' hblocks'
    omega
  | ok a t =>
    rw [hms] at hrun
    obtain ⟨ha, hsource, hposition, hknown⟩ := hrun
    refine ⟨ha, hsource, hposition, fun d hd hblocks => ?_⟩
    obtain ⟨d', hd', hblocks', -⟩ := h d hd hblocks
    exact hknown d' hd' hblocks'

theorem Meets.mono {P' : α → Prop} (hm : Meets m b declared P) (h : ∀ a, P a → P' a) :
    Meets m b declared P' := by
  intro s hnext
  have hrun := hm s hnext
  cases hms : m s with
  | error e t =>
    rw [hms] at hrun
    exact hrun
  | ok a t =>
    rw [hms] at hrun
    exact ⟨h a hrun.1, hrun.2⟩

theorem Meets.pure {a : α} (h : P a) : Meets (Pure.pure a) [] [] P :=
  fun _ _ => ⟨h, rfl, rfl, fun _ hd => by cases hd⟩

/-- An error is met before anything that follows. -/
theorem Meets.throw (e : GgufError) : Meets (MonadExcept.throw e : Parse α) b declared P := by
  intro s _
  exact ⟨Nat.le_add_right _ _, .inr fun d _ _ => Nat.le_add_right _ _⟩

theorem Meets.after {m : Parse α} (hm : Meets m [] [] P) (hf : ∀ a, P a → Meets (f a) b declared Q) :
    Meets (m >>= f) b declared Q := by
  have hboth := hm.bind hf
  have hshift : Declaration.shift 0 = id := by
    funext d
    simp [Declaration.shift]
  simpa [hshift] using hboth

/-- What reads nothing may come last. -/
theorem Meets.last (hm : Meets m b declared P) (hf : ∀ a, P a → Meets (f a) [] [] Q) :
    Meets (m >>= f) b declared Q := by
  simpa using hm.bind hf

theorem Meets.map (hm : Meets m b declared P) {f : α → β} (h : ∀ a, P a → Q (f a)) :
    Meets (m >>= fun a => Pure.pure (f a)) b declared Q :=
  hm.last fun a ha => .pure (h a ha)

theorem Meets.append (hm : Meets m b [] P) (hf : ∀ a, P a → Meets (f a) b' [] Q) :
    Meets (m >>= f) (b ++ b') [] Q := by
  simpa using hm.bind hf

theorem Meets.ite {c : Prop} [Decidable c] {m' : Parse α} (hm : Meets m b declared P)
    (hm' : Meets m' b declared P) : Meets (if c then m else m') b declared P := by
  split
  · exact hm
  · exact hm'

/-- What takes its bytes for no charge meets no declaration. -/
theorem Takes.meets {a : α} (h : Takes m b 0 a) : Meets m b [] (· = a) := by
  intro s hnext
  obtain ⟨s', hrun, hsource, hposition, -⟩ := h s hnext (Nat.zero_le _)
  rw [hrun]
  exact ⟨rfl, hsource, hposition, fun d hd => by cases hd⟩

theorem meets_record (g : Work → Work) : Meets (record g) [] [] fun _ => True :=
  (takes_record g).meets.mono fun _ _ => trivial

theorem meets_bounded (what : String) (value limit : ℕ) :
    Meets (bounded what value limit) [] [] fun _ => True :=
  .ite (.throw _) (.pure trivial)

theorem meets_remaining : Meets (fun s => .ok s.remaining s : Parse ℕ) [] [] fun _ => True :=
  fun _ _ => ⟨trivial, rfl, rfl, fun _ hd => by cases hd⟩

theorem meets_take (amount : ℕ) (what : String) : Meets (take amount what) [] [] fun _ => True := by
  intro s _
  unfold take
  by_cases hle : amount ≤ s.remaining
  · rw [if_pos hle]
    exact ⟨trivial, rfl, rfl, fun _ hd => by cases hd⟩
  · rw [if_neg hle]
    exact ⟨Nat.le_refl _, .inr fun _ hd => by cases hd⟩

theorem meets_number (what : String) (bytes : List UInt8) :
    Meets (number bytes.length what) bytes [] (· = leNat bytes) :=
  (meets_take _ _).after fun _ _ =>
    (takes_readExact what bytes []).meets.map fun buf hbuf => by rw [hbuf, List.nil_append]

theorem meets_u32 (what : String) (v : UInt32) :
    Meets (u32 what) (leBytes 4 v.toNat) [] (· = v) := by
  have hnumber := meets_number what (leBytes 4 v.toNat)
  rw [leBytes_length, leNat_leBytes v.toNat_lt] at hnumber
  exact hnumber.map fun n hn => by rw [hn, UInt32.ofNat_toNat]

theorem meets_u64 (what : String) (v : UInt64) :
    Meets (u64 what) (leBytes 8 v.toNat) [] (· = v) := by
  have hnumber := meets_number what (leBytes 8 v.toNat)
  rw [leBytes_length, leNat_leBytes v.toNat_lt] at hnumber
  exact hnumber.map fun n hn => by rw [hn, UInt64.ofNat_toNat]

theorem meets_length (what : String) {n : ℕ} (h : n < 2 ^ 64) :
    Meets (u64 what) (leBytes 8 n) [] (·.toNat = n) := by
  have hv := meets_u64 what (UInt64.ofNat n)
  rw [UInt64.toNat_ofNat_of_lt' h] at hv
  exact hv.mono fun v hv => by rw [hv, UInt64.toNat_ofNat_of_lt' h]

theorem meets_stringContents (what : String) (contents : List UInt8) :
    Meets (stringContents contents.length what) contents [] fun _ => True := by
  refine meets_remaining.after fun budget _ => (meets_take _ _).after fun _ _ => .ite (.throw _) ?_
  refine (meets_record _).after fun _ _ => ?_
  refine (takes_readExact what contents []).meets.last fun buf _ => ?_
  cases Utf8.textOf buf with
  | some text => exact .pure trivial
  | none => exact .throw _

theorem meets_string (what : String) {contents : List UInt8} (h : contents.length < 2 ^ 64) :
    Meets (string what) (rawText contents) [] fun _ => True := by
  refine (meets_length what h).append fun len hlen => ?_
  refine (meets_bounded _ _ _).after fun _ _ => ?_
  rw [hlen]
  exact meets_stringContents what contents

/-! ### Values -/

theorem readTyped_unknown {array : Parse MetadataValue} {typeId : UInt32} (h : ¬ Known typeId) :
    readTyped array typeId = throw (.unknownValueType typeId) := by
  unfold readTyped
  split <;> first | rfl | exact absurd (by decide) h

/-- Every type of fixed width is read as so many bytes. -/
theorem meets_fixed {array : Parse MetadataValue} {typeId : UInt32} {payload : List UInt8}
    (h : fixedWidth typeId = some payload.length) :
    Meets (readTyped array typeId) payload [] fun _ => True := by
  have hnumber (what : String) {γ : Type} (g : ℕ → γ) :
      Meets (number payload.length what >>= fun n => Pure.pure (g n)) payload [] fun _ => True :=
    (meets_number what payload).map fun _ _ => trivial
  have hread {width : ℕ} (hwidth : some width = some payload.length) (what : String) {γ δ : Type}
      (g : ℕ → γ) (g' : γ → δ) :
      Meets ((number width what >>= fun n => Pure.pure (g n)) >>= fun v => Pure.pure (g' v))
        payload [] fun _ => True := by
    rw [Option.some.inj hwidth]
    exact (hnumber what g).map fun _ _ => trivial
  unfold fixedWidth at h
  split at h
  case h_12 => cases h
  all_goals exact hread h _ _ _

theorem meets_elements {readElement : Parse MetadataValue} {elementType : UInt32}
    {elements : List RawValue} (retain : Bool) (retained : List MetadataValue)
    (h : ∀ v ∈ elements,
      Meets readElement v.encode (⟨elementType, 0, 1⟩ :: v.declarations) fun _ => True) :
    Meets (readElements readElement retain elements.length retained)
      (RawValue.encodeAll elements)
      (⟨elementType, 0, elements.length⟩ :: RawValue.declarationsAll elements) fun _ => True := by
  induction elements generalizing retained with
  | nil =>
    refine (Meets.pure trivial).weaken fun d hd hblocks => ?_
    obtain rfl : d = ⟨elementType, 0, 0⟩ := List.mem_singleton.mp hd
    exact absurd hblocks.1 (Nat.lt_irrefl 0)
  | cons v rest ih =>
    have hrest := fun retained => ih retained fun w hw => h w (List.mem_cons_of_mem _ hw)
    have hboth : Meets (readElements readElement retain (v :: rest).length retained)
        (RawValue.encodeAll (v :: rest))
        ((⟨elementType, 0, 1⟩ :: v.declarations) ++
          (⟨elementType, 0, rest.length⟩ :: RawValue.declarationsAll rest).map
            (Declaration.shift v.encode.length)) fun _ => True := by
      refine (meets_record _).after fun _ _ => ?_
      refine (h v List.mem_cons_self).bind fun value _ => ?_
      exact .ite ((meets_record _).after fun _ _ => hrest _) (hrest _)
    refine hboth.weaken fun d hd hblocks => ?_
    -- The type of the elements stands at the first of them.
    rcases List.mem_cons.mp hd with rfl | hd
    · exact ⟨⟨elementType, 0, 1⟩, by simp, ⟨Nat.one_pos, hblocks.2⟩, Nat.le_refl _⟩
    · refine ⟨d, ?_, hblocks, Nat.le_refl _⟩
      rw [RawValue.declarationsAll, List.mem_append] at hd
      simp only [List.cons_append, List.mem_cons, List.mem_append, List.map_cons]
      tauto

theorem meets_array {readElement : UInt32 → Parse MetadataValue} {elementType : UInt32}
    {elements : List RawValue} (depth : ℕ) (hlen : elements.length < 2 ^ 64)
    (h : ∀ v ∈ elements,
      Meets (readElement elementType) v.encode (⟨elementType, 0, 1⟩ :: v.declarations)
        fun _ => True) :
    Meets (readArray depth readElement) (RawValue.array elementType elements).encode
      (RawValue.array elementType elements).declarations fun _ => True := by
  let declared : List Declaration :=
    ⟨elementType, 0, elements.length⟩ :: RawValue.declarationsAll elements
  have hdeclared : (RawValue.array elementType elements).declarations =
      [] ++ ([] ++ declared.map (Declaration.shift (leBytes 8 elements.length).length)).map
        (Declaration.shift (leBytes 4 elementType.toNat).length) := by
    simp [RawValue.declarations, declared, Declaration.shift]
  rw [hdeclared, RawValue.encode]
  refine (meets_record _).after fun _ _ => (meets_u32 _ elementType).bind fun read hread =>
    (meets_length _ hlen).bind fun len hlength => (meets_bounded _ _ _).after fun _ _ => ?_
  rw [hread, hlength]
  refine (meets_elements _ [] h).last fun retained _ => ?_
  exact .ite ((meets_record _).after fun _ _ => .pure trivial) (.pure trivial)

/-- A value of the type, wherever arrays are read as arrays. -/
theorem meets_typed {array : Parse MetadataValue} {typeId : UInt32} {v : RawValue}
    (h : Typed typeId v)
    (harray : ∀ elementType elements, v = .array elementType elements → elements.length < 2 ^ 64 →
      (∀ w ∈ elements, Typed elementType w) → Meets array v.encode v.declarations fun _ => True) :
    Meets (readTyped array typeId) v.encode (⟨typeId, 0, 1⟩ :: v.declarations) fun _ => True := by
  cases h with
  | unknown hunknown =>
    intro s _
    rw [readTyped_unknown hunknown]
    exact ⟨Nat.le_add_right _ _, .inl ⟨typeId, hunknown, rfl⟩⟩
  | fixed hwidth =>
    refine (meets_fixed hwidth).weaken fun d hd hblocks => ?_
    obtain rfl := List.mem_singleton.mp hd
    have hknown : Known typeId := by
      unfold fixedWidth at hwidth
      split at hwidth <;> first | decide | cases hwidth
    exact absurd hknown hblocks.2
  | text hlen =>
    refine ((meets_string "string" hlen).map fun _ _ => trivial).weaken fun d hd hblocks => ?_
    obtain rfl := List.mem_singleton.mp hd
    exact absurd (by decide) hblocks.2
  | array hlen helements =>
    refine (harray _ _ rfl hlen helements).weaken fun d hd hblocks => ?_
    rcases List.mem_cons.mp hd with rfl | hd
    · exact absurd (by decide) hblocks.2
    · exact ⟨d, hd, hblocks, Nat.le_refl _⟩

theorem meets_value (levels : ℕ) {typeId : UInt32} {v : RawValue} (h : Typed typeId v) :
    Meets (readValue levels typeId) v.encode (⟨typeId, 0, 1⟩ :: v.declarations) fun _ => True := by
  induction levels generalizing typeId v with
  | zero => exact meets_typed h fun _ _ _ _ _ => .throw _
  | succ levels ih =>
    refine meets_typed h ?_
    rintro elementType elements rfl hlen helements
    exact meets_array _ hlen fun w hw => ih (helements w hw)

/-! ### Headers -/

theorem meets_entries {entries : List RawEntry} (metadata : Table String MetadataValue)
    (h : ∀ entry ∈ entries, entry.Typed) :
    Meets (readEntries entries.length metadata) (RawContainer.encodeEntries entries)
      (RawContainer.entryDeclarations entries) fun _ => True := by
  induction entries generalizing metadata with
  | nil => exact .pure trivial
  | cons entry rest ih =>
    have hrest := fun metadata => ih metadata fun e he => h e (List.mem_cons_of_mem _ he)
    obtain ⟨hkey, hvalue⟩ := h entry List.mem_cons_self
    let declared : List Declaration := ⟨entry.typeId, 0, 1⟩ :: entry.value.declarations
    have hbytes : RawContainer.encodeEntries (entry :: rest) =
        rawText entry.key ++ (leBytes 4 entry.typeId.toNat ++
          (entry.value.encode ++ RawContainer.encodeEntries rest)) := by
      simp [RawContainer.encodeEntries, RawEntry.encode]
    have hdeclared : RawContainer.entryDeclarations (entry :: rest) =
        [] ++ ([] ++ (declared ++ (RawContainer.entryDeclarations rest).map
          (Declaration.shift entry.value.encode.length)).map
            (Declaration.shift (leBytes 4 entry.typeId.toNat).length)).map
              (Declaration.shift (rawText entry.key).length) := by
      simp [RawContainer.entryDeclarations, RawEntry.declarations, RawEntry.encode, declared,
        Declaration.shift]
    rw [hbytes, hdeclared]
    refine (meets_record _).after fun _ _ => (meets_string _ hkey).bind fun key _ => ?_
    refine (meets_u32 _ entry.typeId).bind fun typeId htype => ?_
    rw [htype]
    refine (meets_value _ hvalue).bind fun value _ => ?_
    exact (meets_record _).after fun _ _ => hrest _

theorem takes_magic : Meets (readExactOrTruncated "magic" 4 []) MAGIC [] (· = MAGIC) :=
  (takes_readExact "magic" MAGIC []).meets

theorem meets_header {c : RawContainer} (h : c.Typed) :
    Meets readHeader c.encode c.declarations fun _ => True := by
  have hdeclared : c.declarations =
      [] ++ ([] ++ ([] ++ ([] ++ (RawContainer.entryDeclarations c.entries).map
        (Declaration.shift (leBytes 8 c.entries.length).length)).map
          (Declaration.shift (leBytes 8 c.tensorCount.toNat).length)).map
            (Declaration.shift (leBytes 4 c.version.toNat).length)).map
              (Declaration.shift MAGIC.length) := by
    simp [RawContainer.declarations, MAGIC]
  rw [hdeclared, RawContainer.encode]
  refine (meets_take _ _).after fun _ _ => takes_magic.bind fun magic _ => ?_
  refine .ite (.throw _) ?_
  refine (meets_u32 _ c.version).bind fun version _ => .ite (.throw _) ?_
  refine (meets_u64 _ c.tensorCount).bind fun tensorCount _ => (meets_bounded _ _ _).after fun _ _ => ?_
  refine (meets_length _ h.1).bind fun count hcount => (meets_bounded _ _ _).after fun _ _ => ?_
  rw [hcount]
  exact (meets_entries ∅ h.2).map fun _ _ => trivial

/-! ### What an accepted source consists of -/

/-- Where `m` succeeds, it took bytes that `R` relates to its result. -/
def Yields {α : Type} (m : Parse α) (R : α → List UInt8 → Prop) : Prop :=
  ∀ s a s', m s = .ok a s' → ∃ bytes, R a bytes ∧ Next s bytes ∧ s'.source = s.source ∧
    s'.position = s.position + bytes.length

variable {R : α → List UInt8 → Prop} {S : β → List UInt8 → Prop}

theorem Next.nil (s : Budgeted) : Next s [] := by
  intro i x hx
  cases hx

theorem Next.append {s t : Budgeted} {a b : List UInt8} (h : Next s a) (h' : Next t b)
    (hsource : t.source = s.source) (hposition : t.position = s.position + a.length) :
    Next s (a ++ b) := by
  intro i x hx
  by_cases hi : i < a.length
  · rw [List.getElem?_append_left hi] at hx
    exact h i x hx
  · have hle : a.length ≤ i := Nat.le_of_not_lt hi
    rw [List.getElem?_append_right hle] at hx
    have hbyte := h' (i - a.length) x hx
    rw [hsource, hposition, Nat.add_assoc, Nat.add_sub_of_le hle] at hbyte
    exact hbyte

theorem Yields.bind (hm : Yields m R) (hf : ∀ a b, R a b → Yields (f a) fun c b' => S c (b ++ b')) :
    Yields (m >>= f) S := by
  intro s c u hrun
  obtain ⟨a, t, hmrun, hfrun⟩ := bind_ok hrun
  obtain ⟨b, hb, hnext, hsource, hposition⟩ := hm s a t hmrun
  obtain ⟨b', hb', hnext', hsource', hposition'⟩ := hf a b hb t c u hfrun
  refine ⟨b ++ b', hb', hnext.append hnext' hsource hposition, hsource'.trans hsource, ?_⟩
  rw [hposition', hposition, List.length_append, Nat.add_assoc]

theorem Yields.mono {R' : α → List UInt8 → Prop} (hm : Yields m R) (h : ∀ a b, R a b → R' a b) :
    Yields m R' := by
  intro s a s' hrun
  obtain ⟨b, hb, hrest⟩ := hm s a s' hrun
  exact ⟨b, h a b hb, hrest⟩

theorem Yields.pure {a : α} (h : R a []) : Yields (Pure.pure a) R := by
  intro s b s' hrun
  cases hrun
  exact ⟨[], h, .nil s, rfl, rfl⟩

theorem Yields.throw (e : GgufError) : Yields (MonadExcept.throw e : Parse α) R := by
  intro s a s' hrun
  cases hrun

theorem Yields.ite {c : Prop} [Decidable c] {m' : Parse α} (hm : c → Yields m R)
    (hm' : ¬ c → Yields m' R) : Yields (if c then m else m') R := by
  split
  · exact hm ‹_›
  · exact hm' ‹_›

/-- What reads nothing may come first. -/
theorem Yields.after {m : Parse α} (hm : Yields m fun _ b => b = []) (hf : ∀ a, Yields (f a) S) :
    Yields (m >>= f) S := by
  refine hm.bind fun a b hb => ?_
  subst hb
  exact hf a

theorem Yields.map (hm : Yields m R) {f : α → β} (h : ∀ a b, R a b → S (f a) b) :
    Yields (m >>= fun a => Pure.pure (f a)) S := by
  refine hm.bind fun a b hb => .pure ?_
  rw [List.append_nil]
  exact h a b hb

theorem yields_nothing {m : Parse α} (hexact : Exact m)
    (h : ∀ s a s', m s = .ok a s' → s'.position = s.position) : Yields m fun _ b => b = [] := by
  intro s a s' hrun
  exact ⟨[], rfl, .nil s, (hexact s a s' hrun).source, h s a s' hrun⟩

theorem yields_record (g : Work → Work) : Yields (record g) fun _ b => b = [] := by
  refine yields_nothing (exact_record g) fun s a s' h => ?_
  cases h
  rfl

theorem yields_remaining : Yields (fun s => .ok s.remaining s : Parse ℕ) fun _ b => b = [] := by
  refine yields_nothing exact_remaining fun s a s' h => ?_
  cases h
  rfl

theorem yields_take (amount : ℕ) (what : String) : Yields (take amount what) fun _ b => b = [] := by
  refine yields_nothing (exact_take amount what) fun s a s' h => ?_
  unfold take at h
  split at h <;> cases h
  rfl

theorem yields_bounded (what : String) (value limit : ℕ) :
    Yields (bounded what value limit) fun _ b => b = [] :=
  .ite (fun _ => .throw _) fun _ => .pure rfl

theorem yields_readExact (what : String) (n : ℕ) (buf : List UInt8) :
    Yields (readExactOrTruncated what n buf) fun out b => out = buf ++ b ∧ b.length = n := by
  induction n generalizing buf with
  | zero => exact .pure ⟨(List.append_nil buf).symm, rfl⟩
  | succ n ih =>
    intro s out s' hrun
    unfold readExactOrTruncated at hrun
    cases hbyte : s.source s.position with
    | byte b =>
      simp only [hbyte] at hrun
      obtain ⟨rest, ⟨hout, hlength⟩, hnext, hsource, hposition⟩ := ih _ _ _ _ hrun
      refine ⟨b :: rest, ⟨?_, ?_⟩, ?_, hsource, ?_⟩
      · rw [hout, List.append_assoc, List.singleton_append]
      · rw [List.length_cons, hlength]
      · have hfirst : Next s [b] := by
          intro i x hx
          obtain ⟨hi, hx⟩ := List.getElem?_eq_some_iff.mp hx
          obtain rfl : i = 0 := by simpa using hi
          obtain rfl : b = x := by simpa using hx
          exact hbyte
        exact hfirst.append hnext rfl rfl
      · rw [hposition, List.length_cons]
        simp only
        omega
    | eof | failed =>
      simp only [hbyte] at hrun
      cases hrun

theorem yields_number (width : ℕ) (what : String) :
    Yields (number width what) fun n b => b.length = width ∧ n = leNat b :=
  (yields_take width what).after fun _ =>
    (yields_readExact what width []).map fun buf b hb => ⟨hb.2, by rw [hb.1, List.nil_append]⟩

theorem yields_u32 (what : String) : Yields (u32 what) fun v b => b = leBytes 4 v.toNat := by
  refine (yields_number 4 what).map ?_
  rintro n b ⟨hlength, rfl⟩
  have hlt := leNat_lt b
  rw [hlength] at hlt
  rw [UInt32.toNat_ofNat_of_lt' hlt, ← hlength, leBytes_leNat]

theorem yields_u64 (what : String) : Yields (u64 what) fun v b => b = leBytes 8 v.toNat := by
  refine (yields_number 8 what).map ?_
  rintro n b ⟨hlength, rfl⟩
  have hlt := leNat_lt b
  rw [hlength] at hlt
  rw [UInt64.toNat_ofNat_of_lt' hlt, ← hlength, leBytes_leNat]

theorem yields_string (what : String) :
    Yields (string what) fun _ b => ∃ contents, contents.length < 2 ^ 64 ∧ b = rawText contents := by
  refine (yields_u64 what).bind ?_
  rintro len b rfl
  refine (yields_bounded _ _ _).after fun _ => yields_remaining.after fun budget =>
    (yields_take _ _).after fun _ => .ite (fun _ => .throw _) fun _ => ?_
  refine (yields_record _).after fun _ => (yields_readExact what len.toNat []).bind ?_
  rintro buf contents ⟨-, hlength⟩
  have htext : leBytes 8 len.toNat ++ (contents ++ []) = rawText contents := by
    rw [List.append_nil, rawText, hlength]
  cases Utf8.textOf buf with
  | some text => exact .pure ⟨contents, hlength ▸ len.toNat_lt, htext⟩
  | none => exact .throw _

theorem yields_elements {readElement : Parse MetadataValue} {elementType : UInt32} (retain : Bool)
    (n : ℕ) (retained : List MetadataValue)
    (h : Yields readElement fun _ b => ∃ v, Typed elementType v ∧ b = v.encode) :
    Yields (readElements readElement retain n retained) fun _ b =>
      ∃ elements, elements.length = n ∧ (∀ v ∈ elements, Typed elementType v) ∧
        b = RawValue.encodeAll elements := by
  induction n generalizing retained with
  | zero => exact .pure ⟨[], rfl, fun v hv => (List.not_mem_nil hv).elim, rfl⟩
  | succ n ih =>
    refine (yields_record _).after fun _ => h.bind ?_
    rintro value b ⟨v, hv, rfl⟩
    have hrest (retained : List MetadataValue) :
        Yields (readElements readElement retain n retained) fun _ b' =>
          ∃ elements, elements.length = n + 1 ∧ (∀ w ∈ elements, Typed elementType w) ∧
            v.encode ++ b' = RawValue.encodeAll elements := by
      refine (ih retained).mono ?_
      rintro _ b' ⟨elements, hlength, htyped, rfl⟩
      exact ⟨v :: elements, by rw [List.length_cons, hlength], List.forall_mem_cons.mpr ⟨hv, htyped⟩,
        rfl⟩
    exact .ite (fun _ => (yields_record _).after fun _ => hrest _) fun _ => hrest _

theorem yields_array {readElement : UInt32 → Parse MetadataValue} (depth : ℕ)
    (h : ∀ elementType,
      Yields (readElement elementType) fun _ b => ∃ v, Typed elementType v ∧ b = v.encode) :
    Yields (readArray depth readElement) fun _ b => ∃ v, Typed 9 v ∧ b = v.encode := by
  refine (yields_record _).after fun _ => (yields_u32 _).bind ?_
  rintro elementType b rfl
  refine (yields_u64 _).bind ?_
  rintro len b rfl
  refine (yields_bounded _ _ _).after fun _ => (yields_elements _ _ [] (h elementType)).bind ?_
  rintro retained b ⟨elements, hlength, htyped, rfl⟩
  have harray : ∃ v, Typed 9 v ∧ leBytes 4 elementType.toNat ++ (leBytes 8 len.toNat ++
      (RawValue.encodeAll elements ++ [])) = v.encode := by
    refine ⟨.array elementType elements, .array (hlength ▸ len.toNat_lt) htyped, ?_⟩
    rw [List.append_nil, RawValue.encode, hlength]
  exact .ite (fun _ => (yields_record _).after fun _ => .pure harray) fun _ => .pure harray

theorem yields_typed {array : Parse MetadataValue}
    (harray : Yields array fun _ b => ∃ v, Typed 9 v ∧ b = v.encode) (typeId : UInt32) :
    Yields (readTyped array typeId) fun _ b => ∃ v, Typed typeId v ∧ b = v.encode := by
  have hnumber {width : ℕ} {typeId : UInt32} (hwidth : fixedWidth typeId = some width) (what : String)
      {γ δ : Type} (g : ℕ → γ) (g' : γ → δ) :
      Yields ((number width what >>= fun n => Pure.pure (g n)) >>= fun v => Pure.pure (g' v))
        fun _ b => ∃ v, Typed typeId v ∧ b = v.encode := by
    have hbytes : Yields (number width what >>= fun n => Pure.pure (g n))
        fun _ b => b.length = width := (yields_number width what).map fun _ _ hb => hb.1
    refine hbytes.map fun _ b hb => ⟨.fixed b, .fixed ?_, rfl⟩
    rw [hwidth, hb]
  unfold readTyped
  split
  case h_9 =>
    refine (yields_string "string").map ?_
    rintro text b ⟨contents, hlength, rfl⟩
    exact ⟨.text contents, .text hlength, rfl⟩
  case h_10 => exact harray
  case h_14 => exact .throw _
  all_goals exact hnumber rfl _ _ _

theorem yields_value (levels : ℕ) (typeId : UInt32) :
    Yields (readValue levels typeId) fun _ b => ∃ v, Typed typeId v ∧ b = v.encode := by
  induction levels generalizing typeId with
  | zero => exact yields_typed (.throw _) typeId
  | succ levels ih => exact yields_typed (yields_array _ ih) typeId

theorem yields_entries (n : ℕ) (metadata : Table String MetadataValue) :
    Yields (readEntries n metadata) fun _ b => ∃ entries, entries.length = n ∧
      (∀ entry ∈ entries, RawEntry.Typed entry) ∧ b = RawContainer.encodeEntries entries := by
  induction n generalizing metadata with
  | zero => exact .pure ⟨[], rfl, fun entry he => (List.not_mem_nil he).elim, rfl⟩
  | succ n ih =>
    refine (yields_record _).after fun _ => (yields_string _).bind ?_
    rintro key b ⟨contents, hcontents, rfl⟩
    refine (yields_u32 _).bind ?_
    rintro typeId b rfl
    refine (yields_value _ typeId).bind ?_
    rintro value b ⟨v, hv, rfl⟩
    refine (yields_record _).after fun _ => (ih _).mono ?_
    rintro _ b ⟨entries, hlength, htyped, rfl⟩
    refine ⟨⟨contents, typeId, v⟩ :: entries, by rw [List.length_cons, hlength],
      List.forall_mem_cons.mpr ⟨⟨hcontents, hv⟩, htyped⟩, ?_⟩
    simp [RawContainer.encodeEntries, RawEntry.encode]

theorem yields_header :
    Yields readHeader fun _ b => ∃ c : RawContainer, c.Typed ∧ b = c.encode := by
  refine (yields_take _ _).after fun _ => (yields_readExact _ _ _).bind ?_
  rintro magic b ⟨hread, -⟩
  refine .ite (fun _ => .throw _) fun hmagic => ?_
  obtain rfl : b = MAGIC := by
    rw [List.nil_append] at hread
    rw [← hread]
    exact not_not.mp hmagic
  refine (yields_u32 _).bind ?_
  rintro version b rfl
  refine .ite (fun _ => .throw _) fun _ => (yields_u64 _).bind ?_
  rintro tensorCount b rfl
  refine (yields_bounded _ _ _).after fun _ => (yields_u64 _).bind ?_
  rintro count b rfl
  refine (yields_bounded _ _ _).after fun _ => (yields_entries _ _).map ?_
  rintro metadata b ⟨entries, hlength, htyped, rfl⟩
  exact ⟨⟨version, tensorCount, entries⟩, ⟨hlength ▸ count.toNat_lt, htyped⟩,
    by rw [RawContainer.encode, hlength]⟩

/-! ### Undeclared types -/

/-- The source starts with these bytes. -/
def Begins (source : Source) (bytes : List UInt8) : Prop :=
  ∀ (i : ℕ) (b : UInt8), bytes[i]? = some b → source i = .byte b

theorem begins_iff {source : Source} {bytes : List UInt8} :
    Begins source bytes ↔ Next (.new source MAX_HEADER_BYTES) bytes := by
  simp [Begins, Next, Budgeted.new]

/-- An array without elements declares an unknown type for them. -/
def RawContainer.DeclaresUnused (c : RawContainer) : Prop :=
  ∃ d ∈ c.declarations, d.count = 0 ∧ ¬ Known d.typeId

/-- No type goes undeclared: what is accepted declares known types only, and what declares
another is rejected for one, or for something met before a value of it could begin. -/
structure Checked (source : Source) (c : RawContainer) : Prop where
  accepted : ∀ header s, parse source = .ok header s → ∀ d ∈ c.declarations, Known d.typeId
  rejected : ∀ d ∈ c.declarations, ¬ Known d.typeId →
    ∃ e s, parse source = .error e s ∧ (Refused e ∨ s.position ≤ d.begins)

theorem RawContainer.blocks_of_unknown {c : RawContainer} (h : ¬ c.DeclaresUnused) {d : Declaration}
    (hd : d ∈ c.declarations) (hunknown : ¬ Known d.typeId) : d.Blocks := by
  refine ⟨Nat.pos_of_ne_zero fun hzero => h ⟨d, hd, hzero, hunknown⟩, hunknown⟩

theorem checked_of_used {source : Source} {c : RawContainer} (hc : c.Typed)
    (hbegins : Begins source c.encode) (h : ¬ c.DeclaresUnused) : Checked source c := by
  have hmeets := meets_header hc _ (begins_iff.mp hbegins)
  constructor
  · intro header s hparse d hd
    have hrun : readHeader (.new source MAX_HEADER_BYTES) = .ok header s := hparse
    rw [hrun] at hmeets
    by_contra hunknown
    exact hmeets.2.2.2 d hd (RawContainer.blocks_of_unknown h hd hunknown)
  · intro d hd hunknown
    have hblocks := RawContainer.blocks_of_unknown h hd hunknown
    unfold parse
    cases hrun : readHeader (.new source MAX_HEADER_BYTES) with
    | ok header s =>
      rw [hrun] at hmeets
      exact absurd hblocks (hmeets.2.2.2 d hd)
    | error e s =>
      rw [hrun] at hmeets
      refine ⟨e, s, rfl, hmeets.2.imp_right fun hbefore => ?_⟩
      have hlate := hbefore d hd hblocks
      simpa [Budgeted.new] using hlate

/-- What is accepted is a container, and its types are checked exactly where no array without
elements declares an unknown one. -/
theorem parse_types_checked (source : Source) :
    (∀ header s, parse source = .ok header s →
      ∃ c : RawContainer, c.Typed ∧ Begins source c.encode ∧ s.position = c.encode.length) ∧
    ∀ c : RawContainer, c.Typed → Begins source c.encode →
      (¬ c.DeclaresUnused → Checked source c) ∧
      ∀ header s, parse source = .ok header s →
        s.position = c.encode.length ∧ (Checked source c ↔ ¬ c.DeclaresUnused) := by
  constructor
  · intro header s hparse
    obtain ⟨b, ⟨c, hc, rfl⟩, hnext, -, hposition⟩ := yields_header _ _ _ hparse
    exact ⟨c, hc, begins_iff.mpr hnext, hposition.trans (Nat.zero_add _)⟩
  · intro c hc hbegins
    refine ⟨checked_of_used hc hbegins, fun header s hparse => ?_⟩
    have hmeets := meets_header hc _ (begins_iff.mp hbegins)
    have hrun : readHeader (.new source MAX_HEADER_BYTES) = .ok header s := hparse
    rw [hrun] at hmeets
    refine ⟨hmeets.2.2.1.trans (Nat.zero_add _), ?_, checked_of_used hc hbegins⟩
    rintro hchecked ⟨d, hd, -, hunknown⟩
    exact hunknown (hchecked.accepted header s hparse d hd)

/-- One entry, an array. -/
def arrayContainer (elementType : UInt32) (elements : List RawValue) : RawContainer :=
  ⟨3, 0, [⟨bytesOf "a", 9, .array elementType elements⟩]⟩

/-- No element is read, so the type of the elements is not looked at. -/
theorem parses_emptyArray (levels : ℕ) (elementType : UInt32) :
    Parses (readValue (levels + 1) 9) (RawValue.array elementType []).encode (.array []) := by
  have hlength : (0 : ℕ) < 2 ^ 64 := by decide
  change Parses (readArray _ (readValue levels)) _ _
  unfold readArray
  rw [RawValue.encode]
  refine .after (takes_record _) ((parses_u32 elementType).bind ((parses_length hlength).bind ?_))
  refine .after (takes_bounded (Nat.zero_le _)) (.after (.pure []) ?_)
  exact .after (takes_record _) (.pure _)

theorem parses_emptyContainer (elementType : UInt32) :
    Parses readHeader (arrayContainer elementType []).encode
      ⟨3, 0, 1, (∅ : Table String MetadataValue).insert "a" (.array [])⟩ := by
  have hkey : "a".utf8ByteSize ≤ MAX_STRING_BYTES := by decide
  have hversion : (3 : UInt32) ∈ SUPPORTED_VERSIONS := by decide
  have hcount : (1 : ℕ) < 2 ^ 64 := by decide
  have hentry : Parses (readEntries 1 ∅) (RawContainer.encodeEntries
      (arrayContainer elementType []).entries) (.insert "a" (.array []) ∅) := by
    have hbytes : RawContainer.encodeEntries (arrayContainer elementType []).entries =
        Value.encodeText "a" ++ (leBytes 4 (9 : UInt32).toNat ++
          ((RawValue.array elementType []).encode ++ [])) := by
      simp [arrayContainer, RawContainer.encodeEntries, RawEntry.encode, rawText, Value.encodeText,
        bytesOf_length]
    rw [hbytes]
    refine .after (takes_record _) ((parses_string hkey).bind ((parses_u32 9).bind ?_))
    exact (parses_emptyArray 3 elementType).bind (.after (takes_record _) (.pure _))
  unfold readHeader
  refine .readExact rfl ?_
  rw [if_neg (not_not_intro rfl)]
  refine (parses_u32 3).bind ?_
  rw [if_neg (not_not_intro hversion)]
  refine (parses_u64 _ 0).bind (.after (takes_bounded (Nat.zero_le _)) ?_)
  refine (parses_length hcount).bind ?_
  rw [UInt64.toNat_ofNat_of_lt' hcount]
  exact .after (takes_bounded (by decide)) (hentry.map rfl)

theorem begins_ofBytes (bytes rest : List UInt8) : Begins (.ofBytes (bytes ++ rest)) bytes :=
  begins_iff.mpr (next_ofBytes bytes rest _)

/-- An unknown element type is accepted where no element is read. -/
theorem unused_type_accepted :
    ¬ ∀ (source : Source) (c : RawContainer), c.Typed → Begins source c.encode → Checked source c := by
  intro hall
  have htyped : (arrayContainer 99 []).Typed := by
    refine ⟨by decide, fun entry he => ?_⟩
    obtain rfl := List.mem_singleton.mp he
    exact ⟨by decide, .array (by decide) fun v hv => (List.not_mem_nil hv).elim⟩
  have hsize : (arrayContainer 99 []).encode.length ≤ MAX_HEADER_BYTES := by decide
  obtain ⟨s, hparse, -⟩ := parses_emptyContainer 99 _ (next_ofBytes _ [] _) hsize
  have hchecked := hall _ _ htyped (begins_ofBytes _ [])
  exact absurd (hchecked.accepted _ s hparse ⟨99, 49, 0⟩ (by decide)) (by decide)

/-- A value of an unknown type in an array. -/
theorem parse_types_checked_refused :
    ∃ e s, parse (.ofBytes (arrayContainer 99 [.fixed [0xff]]).encode) = .error e s ∧
      (Refused e ∨ s.position ≤ 49) := by
  have htyped : (arrayContainer 99 [.fixed [0xff]]).Typed := by
    refine ⟨by decide, fun entry he => ?_⟩
    obtain rfl := List.mem_singleton.mp he
    exact ⟨by decide, .array (by decide) fun v _ => .unknown (by decide)⟩
  have hbegins := begins_ofBytes (arrayContainer 99 [.fixed [0xff]]).encode []
  rw [List.append_nil] at hbegins
  obtain ⟨hused, -⟩ := (parse_types_checked _).2 _ htyped hbegins
  have hchecked := hused (by
    rintro ⟨d, hd, hzero, hunknown⟩
    have hcount : ∀ d ∈ (arrayContainer 99 [.fixed [0xff]]).declarations, d.count ≠ 0 := by decide
    exact hcount d hd hzero)
  exact hchecked.rejected ⟨99, 49, 1⟩ (by decide) (by decide)

end MehoyRuntime.Registry
