import MehoyRuntime.Registry.Gguf

/-!
# GGUF headers survive the parser

Typed headers, their encoding, and what the parser is to make of them. `Parses m e a`
says that `m` takes exactly the bytes `e` and returns `a` wherever they stand in a
source whose budget reaches that far.
-/

namespace MehoyRuntime.Registry
open MehoyRuntime.Core LittleEndian KeyedTable Utf8
open Budgeted

/-! ### Typed headers -/

inductive ValueType
  | u8 | i8 | u16 | i16 | u32 | i32 | f32 | bool | string | array | u64 | i64 | f64
  deriving DecidableEq, Repr

def ValueType.id : ValueType → UInt32
  | .u8 => 0
  | .i8 => 1
  | .u16 => 2
  | .i16 => 3
  | .u32 => 4
  | .i32 => 5
  | .f32 => 6
  | .bool => 7
  | .string => 8
  | .array => 9
  | .u64 => 10
  | .i64 => 11
  | .f64 => 12

inductive Value
  | u8 (value : UInt8)
  | i8 (value : Int8)
  | u16 (value : UInt16)
  | i16 (value : Int16)
  | u32 (value : UInt32)
  | i32 (value : Int32)
  | f32 (value : F32)
  | bool (value : Bool)
  | string (value : String)
  | array (elementType : ValueType) (elements : List Value)
  | u64 (value : UInt64)
  | i64 (value : Int64)
  | f64 (value : F64)

namespace Value

def type : Value → ValueType
  | .u8 _ => .u8
  | .i8 _ => .i8
  | .u16 _ => .u16
  | .i16 _ => .i16
  | .u32 _ => .u32
  | .i32 _ => .i32
  | .f32 _ => .f32
  | .bool _ => .bool
  | .string _ => .string
  | .array _ _ => .array
  | .u64 _ => .u64
  | .i64 _ => .i64
  | .f64 _ => .f64

def encodeText (text : String) : List UInt8 := leBytes 8 text.utf8ByteSize ++ bytesOf text

mutual

def encode : Value → List UInt8
  | .u8 v => leBytes 1 v.toNat
  | .i8 v => leBytes 1 v.toUInt8.toNat
  | .u16 v => leBytes 2 v.toNat
  | .i16 v => leBytes 2 v.toUInt16.toNat
  | .u32 v => leBytes 4 v.toNat
  | .i32 v => leBytes 4 v.toUInt32.toNat
  | .f32 v => leBytes 4 v.bits.toNat
  | .bool v => leBytes 1 v.toNat
  | .string v => encodeText v
  | .array elementType elements =>
    leBytes 4 elementType.id.toNat ++ leBytes 8 elements.length ++ encodeAll elements
  | .u64 v => leBytes 8 v.toNat
  | .i64 v => leBytes 8 v.toUInt64.toNat
  | .f64 v => leBytes 8 v.bits.toNat

def encodeAll : List Value → List UInt8
  | [] => []
  | v :: vs => encode v ++ encodeAll vs

end

mutual

/-- The value as it is reported: every array longer than `MAX_RETAINED_ARRAY_LEN` by its
shape. -/
def summarise : Value → MetadataValue
  | .u8 v => .u8 v
  | .i8 v => .i8 v
  | .u16 v => .u16 v
  | .i16 v => .i16 v
  | .u32 v => .u32 v
  | .i32 v => .i32 v
  | .f32 v => .f32 v
  | .bool v => .bool v
  | .string v => .string v
  | .array elementType elements =>
    if elements.length ≤ MAX_RETAINED_ARRAY_LEN then .array (summariseAll elements)
    else .largeArray elementType.id elements.length
  | .u64 v => .u64 v
  | .i64 v => .i64 v
  | .f64 v => .f64 v

def summariseAll : List Value → List MetadataValue
  | [] => []
  | v :: vs => summarise v :: summariseAll vs

end

/-- Strings and arrays within their limits, arrays homogeneous and nested at most so many
deep. -/
def Fits : ℕ → Value → Prop
  | _, .string v => v.utf8ByteSize ≤ MAX_STRING_BYTES
  | 0, .array _ _ => False
  | levels + 1, .array elementType elements =>
    elements.length ≤ MAX_ARRAY_LEN ∧ ∀ v ∈ elements, v.type = elementType ∧ Fits levels v
  | _, _ => True

end Value

structure Header where
  version : UInt32
  tensorCount : ℕ
  entries : List (String × Value)

namespace Header

def encodeEntry (entry : String × Value) : List UInt8 :=
  Value.encodeText entry.1 ++ leBytes 4 entry.2.type.id.toNat ++ entry.2.encode

def encode (header : Header) : List UInt8 :=
  MAGIC ++ leBytes 4 header.version.toNat ++ leBytes 8 header.tensorCount ++
    leBytes 8 header.entries.length ++ (header.entries.map encodeEntry).flatten

structure Fits (header : Header) : Prop where
  version : header.version = 2 ∨ header.version = 3
  tensorCount : header.tensorCount ≤ MAX_TENSOR_COUNT
  count : header.entries.length ≤ MAX_METADATA_ENTRIES
  distinct : (header.entries.map Prod.fst).Nodup
  keys : ∀ entry ∈ header.entries, entry.1.utf8ByteSize ≤ MAX_STRING_BYTES
  values : ∀ entry ∈ header.entries, entry.2.Fits MAX_ARRAY_DEPTH

end Header

/-! ### Reading exactly some bytes -/

/-- The source goes on with these bytes. -/
def Next (s : Budgeted) (bytes : List UInt8) : Prop :=
  ∀ (i : ℕ) (b : UInt8), bytes[i]? = some b → s.source (s.position + i) = .byte b

/-- `m` takes exactly these bytes, charges so much to the budget and returns `a`. -/
def Takes {α : Type} (m : Parse α) (bytes : List UInt8) (charge : ℕ) (a : α) : Prop :=
  ∀ s : Budgeted, Next s bytes → charge ≤ s.remaining →
    ∃ s', m s = .ok a s' ∧ s'.source = s.source ∧ s'.position = s.position + bytes.length ∧
      s'.remaining + charge = s.remaining

def Parses {α : Type} (m : Parse α) (bytes : List UInt8) (a : α) : Prop :=
  Takes m bytes bytes.length a

variable {α β : Type}

theorem Next.left {s : Budgeted} {a b : List UInt8} (h : Next s (a ++ b)) : Next s a := by
  intro i x hx
  refine h i x ?_
  rw [List.getElem?_append_left (List.getElem?_eq_some_iff.mp hx).1]
  exact hx

theorem Next.right {s s' : Budgeted} {a b : List UInt8} (h : Next s (a ++ b))
    (hsource : s'.source = s.source) (hposition : s'.position = s.position + a.length) :
    Next s' b := by
  intro i x hx
  rw [hsource, hposition, Nat.add_assoc]
  refine h (a.length + i) x ?_
  rw [List.getElem?_append_right (Nat.le_add_right _ _), Nat.add_sub_cancel_left]
  exact hx

theorem Takes.bind {m : Parse α} {f : α → Parse β} {a b : List UInt8} {c c' : ℕ} {x : α} {y : β}
    (hm : Takes m a c x) (hf : Takes (f x) b c' y) : Takes (m >>= f) (a ++ b) (c + c') y := by
  intro s hnext hbudget
  obtain ⟨s₁, hrun, hsource, hposition, hremaining⟩ := hm s hnext.left (by omega)
  obtain ⟨s₂, hrun', hsource', hposition', hremaining'⟩ :=
    hf s₁ (hnext.right hsource hposition) (by omega)
  refine ⟨s₂, ?_, hsource'.trans hsource, ?_, by omega⟩
  · change EStateM.bind m f s = _
    rw [EStateM.bind, hrun]
    exact hrun'
  · rw [hposition', hposition, List.length_append, Nat.add_assoc]

theorem Takes.pure (x : α) : Takes (Pure.pure x) [] 0 x := by
  intro s _ _
  exact ⟨s, rfl, rfl, rfl, rfl⟩

theorem Takes.parses {m : Parse α} {bytes : List UInt8} {charge : ℕ} {x : α}
    (h : Takes m bytes charge x) (hcharge : charge = bytes.length) : Parses m bytes x := by
  subst hcharge
  exact h

theorem Parses.bind {m : Parse α} {f : α → Parse β} {a b : List UInt8} {x : α} {y : β}
    (hm : Parses m a x) (hf : Parses (f x) b y) : Parses (m >>= f) (a ++ b) y :=
  (Takes.bind hm hf).parses List.length_append.symm

theorem Parses.pure (x : α) : Parses (Pure.pure x) [] x := Takes.pure x

/-- What takes no bytes may come first. -/
theorem Parses.after {m : Parse α} {f : α → Parse β} {b : List UInt8} {x : α} {y : β}
    (hm : Takes m [] 0 x) (hf : Parses (f x) b y) : Parses (m >>= f) b y :=
  Parses.bind hm hf

/-- The last step of a computation, on what was read before it. -/
theorem Parses.map {m : Parse α} {f : α → Parse β} {a : List UInt8} {x : α} {y : β}
    (hm : Parses m a x) (hf : f x = Pure.pure y) : Parses (m >>= f) a y := by
  have hlast : Parses (f x) [] y := hf ▸ Parses.pure y
  simpa using hm.bind hlast

theorem takes_record (f : Work → Work) : Takes (record f) [] 0 () := by
  intro s _ _
  exact ⟨_, rfl, rfl, rfl, rfl⟩

theorem takes_bounded {what : String} {value limit : ℕ} (h : value ≤ limit) :
    Takes (bounded what value limit) [] 0 () := by
  unfold bounded
  rw [if_neg (by omega)]
  exact .pure ()

theorem takes_take (amount : ℕ) (what : String) : Takes (take amount what) [] amount () := by
  intro s _ hbudget
  refine ⟨_, if_pos hbudget, rfl, rfl, ?_⟩
  simp only
  omega

theorem takes_readExact (what : String) (bytes buf : List UInt8) :
    Takes (readExactOrTruncated what bytes.length buf) bytes 0 (buf ++ bytes) := by
  induction bytes generalizing buf with
  | nil =>
    rw [List.append_nil]
    exact .pure buf
  | cons b rest ih =>
    intro s hnext _
    have hbyte : s.source s.position = .byte b := hnext 0 b rfl
    have hrest : Next { s with position := s.position + 1 } rest :=
      Next.right (a := [b]) hnext rfl rfl
    obtain ⟨s', hrun, hsource, hposition, hremaining⟩ := ih (buf ++ [b]) _ hrest (Nat.zero_le _)
    refine ⟨s', ?_, hsource, ?_, hremaining⟩
    · simpa [readExactOrTruncated, hbyte] using hrun
    · rw [hposition, List.length_cons, Nat.add_assoc, Nat.add_comm 1]

/-- So many bytes, charged and then read. -/
theorem Parses.readExact {what : String} {n : ℕ} {bytes b : List UInt8} {f : List UInt8 → Parse β}
    {y : β} (hn : bytes.length = n) (hf : Parses (f bytes) b y) :
    Parses (take n what >>= fun _ => readExactOrTruncated what n [] >>= f) (bytes ++ b) y := by
  subst hn
  have hread : Takes (readExactOrTruncated what bytes.length []) bytes 0 bytes :=
    takes_readExact what bytes []
  refine ((takes_take _ _).bind (hread.bind hf)).parses ?_
  rw [Nat.zero_add]
  exact List.length_append.symm

theorem parses_number {what : String} {width n : ℕ} (h : n < 256 ^ width) :
    Parses (number width what) (leBytes width n) n := by
  have hread : Parses (number width what) (leBytes width n ++ []) (leNat (leBytes width n)) :=
    .readExact (leBytes_length width n) (.pure _)
  rwa [leNat_leBytes h, List.append_nil] at hread

theorem parses_u8 {what : String} (v : UInt8) : Parses (u8 what) (leBytes 1 v.toNat) v :=
  (parses_number v.toNat_lt).map (by rw [UInt8.ofNat_toNat])

theorem parses_u16 {what : String} (v : UInt16) : Parses (u16 what) (leBytes 2 v.toNat) v :=
  (parses_number v.toNat_lt).map (by rw [UInt16.ofNat_toNat])

theorem parses_u32 {what : String} (v : UInt32) : Parses (u32 what) (leBytes 4 v.toNat) v :=
  (parses_number v.toNat_lt).map (by rw [UInt32.ofNat_toNat])

theorem parses_u64 (what : String) (v : UInt64) : Parses (u64 what) (leBytes 8 v.toNat) v :=
  (parses_number v.toNat_lt).map (by rw [UInt64.ofNat_toNat])

/-- A length or a count, as the 64-bit number that carries it. -/
theorem parses_length {what : String} {n : ℕ} (h : n < 2 ^ 64) :
    Parses (u64 what) (leBytes 8 n) (UInt64.ofNat n) := by
  have hv := parses_u64 what (UInt64.ofNat n)
  rwa [UInt64.toNat_ofNat_of_lt' h] at hv

/-- What looks at the budget first reads the same for each. -/
theorem Parses.looking {f : ℕ → Parse β} {b : List UInt8} {y : β}
    (hf : ∀ budget, Parses (f budget) b y) :
    Parses ((fun s => .ok s.remaining s : Parse ℕ) >>= f) b y :=
  fun s hnext hbudget => hf s.remaining s hnext hbudget

theorem parses_stringContents {what : String} {text : String} (h : text.utf8ByteSize ≤ usizeMax) :
    Parses (stringContents text.utf8ByteSize what) (bytesOf text) text := by
  have hread : Takes (readExactOrTruncated what text.utf8ByteSize []) (bytesOf text) 0 (bytesOf text) :=
    takes_readExact what (bytesOf text) []
  have hbytes : bytesOf text = [] ++ ([] ++ (bytesOf text ++ [])) := by simp
  unfold stringContents
  refine .looking fun budget => ?_
  rw [hbytes]
  apply Takes.parses
  · apply Takes.bind (takes_take _ _)
    rw [if_neg (by omega)]
    apply Takes.bind (takes_record _)
    apply hread.bind
    rw [textOf_bytesOf]
    exact .pure text
  · simp [bytesOf_length]

theorem parses_string {what : String} {text : String} (h : text.utf8ByteSize ≤ MAX_STRING_BYTES) :
    Parses (string what) (Value.encodeText text) text := by
  have hlen : text.utf8ByteSize < 2 ^ 64 := Nat.lt_of_le_of_lt h (by decide)
  refine (parses_length hlen).bind ?_
  rw [UInt64.toNat_ofNat_of_lt' hlen]
  refine .after (takes_bounded h) (parses_stringContents ?_)
  exact Nat.le_trans h (by decide)

/-! ### Values -/

/-- Every type of value but arrays, and arrays where they are read so. -/
theorem parses_typed {array : Parse MetadataValue} {v : Value}
    (hstring : ∀ text, v = .string text → text.utf8ByteSize ≤ MAX_STRING_BYTES)
    (harray : v.type = .array → Parses array v.encode v.summarise) :
    Parses (readTyped array v.type.id) v.encode v.summarise := by
  cases v with
  | u8 v => exact (parses_u8 v).map rfl
  | i8 v => exact (parses_u8 v.toUInt8).map rfl
  | u16 v => exact (parses_u16 v).map rfl
  | i16 v => exact (parses_u16 v.toUInt16).map rfl
  | u32 v => exact (parses_u32 v).map rfl
  | i32 v => exact (parses_u32 v.toUInt32).map rfl
  | f32 v => exact (parses_u32 v.bits).map rfl
  | bool v =>
    cases v with
    | false => exact (parses_u8 0).map rfl
    | true => exact (parses_u8 1).map rfl
  | string v => exact (parses_string (hstring v rfl)).map rfl
  | array elementType elements => exact harray rfl
  | u64 v => exact (parses_u64 _ v).map rfl
  | i64 v => exact (parses_u64 _ v.toUInt64).map rfl
  | f64 v => exact (parses_u64 _ v.bits).map rfl

theorem parses_elements {readElement : Parse MetadataValue} {retain : Bool} {elements : List Value}
    {kept : List MetadataValue} (h : ∀ v ∈ elements, Parses readElement v.encode v.summarise) :
    Parses (readElements readElement retain elements.length kept) (Value.encodeAll elements)
      (if retain then kept ++ Value.summariseAll elements else kept) := by
  induction elements generalizing kept with
  | nil =>
    cases retain with
    | false => exact .pure kept
    | true =>
      rw [if_pos rfl, Value.summariseAll, List.append_nil]
      exact .pure kept
  | cons v rest ih =>
    have hrest : ∀ v ∈ rest, Parses readElement v.encode v.summarise :=
      fun w hw => h w (List.mem_cons_of_mem _ hw)
    refine .after (takes_record _) ((h v List.mem_cons_self).bind ?_)
    cases retain with
    | false => exact ih hrest
    | true =>
      have htail : Parses (readElements readElement true rest.length (kept ++ [v.summarise])) _ _ :=
        ih hrest
      rw [if_pos rfl, List.append_assoc] at htail
      exact .after (takes_record _) htail

theorem parses_array {depth : ℕ} {readElement : UInt32 → Parse MetadataValue}
    {elementType : ValueType} {elements : List Value} (hlen : elements.length ≤ MAX_ARRAY_LEN)
    (h : ∀ v ∈ elements, Parses (readElement elementType.id) v.encode v.summarise) :
    Parses (readArray depth readElement) (Value.array elementType elements).encode
      (Value.array elementType elements).summarise := by
  have hsize : elements.length < 2 ^ 64 := Nat.lt_of_le_of_lt hlen (by decide)
  have hmin : min elements.length usizeMax = elements.length := Nat.min_eq_left (Nat.le_pred_of_lt hsize)
  unfold readArray
  rw [Value.encode, Value.summarise, List.append_assoc]
  refine .after (takes_record _) ((parses_u32 _).bind ((parses_length hsize).bind ?_))
  rw [UInt64.toNat_ofNat_of_lt' hsize]
  refine .after (takes_bounded hlen) ?_
  rw [hmin]
  have hread (retain : Bool) :
      Parses (readElements (readElement elementType.id) retain elements.length []) _ _ :=
    parses_elements h
  by_cases hretain : elements.length ≤ MAX_RETAINED_ARRAY_LEN
  · rw [decide_eq_true hretain, if_pos hretain, ← List.append_nil (Value.encodeAll elements)]
    exact (hread true).bind (.after (takes_record _) (.pure _))
  · rw [decide_eq_false hretain, if_neg hretain]
    refine (hread false).map ?_
    rw [if_neg Bool.false_ne_true]

/-- A level of the recursion for each level of arrays. -/
theorem parses_value {levels : ℕ} {v : Value} (h : v.Fits levels) :
    Parses (readValue levels v.type.id) v.encode v.summarise := by
  induction levels generalizing v with
  | zero =>
    refine parses_typed ?_ ?_
    · rintro text rfl
      exact h
    · intro harray
      cases v with
      | array _ _ => exact h.elim
      | _ => cases harray
  | succ levels ih =>
    refine parses_typed ?_ ?_
    · rintro text rfl
      exact h
    · intro harray
      cases v with
      | array elementType elements =>
        refine parses_array h.1 fun v hv => ?_
        rw [← (h.2 v hv).1]
        exact ih (h.2 v hv).2
      | _ => cases harray

/-! ### Headers -/

def entriesOf (entries : List (String × Value)) (metadata : Table String MetadataValue) :
    Table String MetadataValue :=
  entries.foldl (fun table entry => table.insert entry.1 entry.2.summarise) metadata

theorem parses_entries {entries : List (String × Value)} {metadata : Table String MetadataValue}
    (hkeys : ∀ entry ∈ entries, entry.1.utf8ByteSize ≤ MAX_STRING_BYTES)
    (hvalues : ∀ entry ∈ entries, entry.2.Fits MAX_ARRAY_DEPTH) :
    Parses (readEntries entries.length metadata) (entries.map Header.encodeEntry).flatten
      (entriesOf entries metadata) := by
  induction entries generalizing metadata with
  | nil => exact .pure metadata
  | cons entry rest ih =>
    have hrest : Parses (readEntries rest.length (metadata.insert entry.1 entry.2.summarise)) _ _ :=
      ih (fun e he => hkeys e (List.mem_cons_of_mem _ he))
        (fun e he => hvalues e (List.mem_cons_of_mem _ he))
    have hkey : Parses (string "metadata key") _ _ := parses_string (hkeys entry List.mem_cons_self)
    have hvalue := parses_value (hvalues entry List.mem_cons_self)
    rw [List.map_cons, List.flatten_cons, Header.encodeEntry, List.append_assoc, List.append_assoc]
    refine .after (takes_record _) (hkey.bind ((parses_u32 _).bind ?_))
    exact hvalue.bind (.after (takes_record _) hrest)

/-- The header after its magic. -/
theorem parses_body {header : Header} (h : header.Fits) :
    Parses (do
        let version ← u32 "version"
        if version ∉ SUPPORTED_VERSIONS then throw (.unsupportedVersion version)
        else
          let tensorCount ← u64 "tensor count"
          bounded "tensor count" tensorCount.toNat MAX_TENSOR_COUNT
          let metadataCount ← u64 "metadata count"
          bounded "metadata count" metadataCount.toNat MAX_METADATA_ENTRIES
          let metadata ← readEntries metadataCount.toNat ∅
          return GgufHeader.mk version tensorCount.toNat metadataCount.toNat metadata)
      (leBytes 4 header.version.toNat ++ (leBytes 8 header.tensorCount ++
        (leBytes 8 header.entries.length ++ (header.entries.map Header.encodeEntry).flatten)))
      ⟨header.version, header.tensorCount, header.entries.length, entriesOf header.entries ∅⟩ := by
  have htensors : header.tensorCount < 2 ^ 64 := Nat.lt_of_le_of_lt h.tensorCount (by decide)
  have hcount : header.entries.length < 2 ^ 64 := Nat.lt_of_le_of_lt h.count (by decide)
  have hversion : header.version ∈ SUPPORTED_VERSIONS := by
    rcases h.version with hv | hv <;> simp [hv, SUPPORTED_VERSIONS]
  refine (parses_u32 _).bind ?_
  rw [if_neg (not_not_intro hversion)]
  refine (parses_length htensors).bind ?_
  rw [UInt64.toNat_ofNat_of_lt' htensors]
  refine .after (takes_bounded h.tensorCount) ((parses_length hcount).bind ?_)
  rw [UInt64.toNat_ofNat_of_lt' hcount]
  exact .after (takes_bounded h.count) ((parses_entries h.keys h.values).map rfl)

theorem parses_header {header : Header} (h : header.Fits) :
    Parses readHeader header.encode
      ⟨header.version, header.tensorCount, header.entries.length, entriesOf header.entries ∅⟩ := by
  unfold readHeader
  simp only [Header.encode, List.append_assoc]
  refine .readExact rfl ?_
  rw [if_neg (not_not_intro rfl)]
  exact parses_body h

theorem lookup_entriesOf {entries : List (String × Value)} {metadata : Table String MetadataValue}
    (hdistinct : (entries.map Prod.fst).Nodup)
    (hfresh : ∀ entry ∈ entries, metadata.lookup entry.1 = none) {key : String}
    {value : MetadataValue} :
    (entriesOf entries metadata).lookup key = some value ↔
      metadata.lookup key = some value ∨ ∃ v, (key, v) ∈ entries ∧ value = v.summarise := by
  induction entries generalizing metadata with
  | nil => simp [entriesOf]
  | cons entry rest ih =>
    rw [List.map_cons, List.nodup_cons] at hdistinct
    have hne : ∀ e ∈ rest, e.1 ≠ entry.1 := by
      intro e he heq
      exact hdistinct.1 (heq ▸ List.mem_map_of_mem he)
    have hfresh' : ∀ e ∈ rest, (metadata.insert entry.1 entry.2.summarise).lookup e.1 = none :=
      fun e he => (AList.lookup_insert_ne (hne e he)).trans (hfresh e (List.mem_cons_of_mem _ he))
    have hrest := ih hdistinct.2 hfresh'
    rw [entriesOf, List.foldl_cons, ← entriesOf, hrest]
    rcases eq_or_ne key entry.1 with rfl | hkey
    · have hnone := hfresh entry List.mem_cons_self
      have hnot : ∀ v, (entry.1, v) ∉ rest := fun v hv => hne _ hv rfl
      simp [hnone, hnot, Prod.ext_iff, eq_comm]
    · rw [AList.lookup_insert_ne hkey]
      simp [Prod.ext_iff, hkey]

theorem next_ofBytes (e t : List UInt8) (budget : ℕ) : Next (.new (Source.ofBytes (e ++ t)) budget) e := by
  intro i b hb
  have hlt : i < e.length := (List.getElem?_eq_some_iff.mp hb).1
  have hbyte : (e ++ t)[0 + i]? = some b := by
    rw [Nat.zero_add, List.getElem?_append_left hlt]
    exact hb
  simp only [Budgeted.new, Source.ofBytes, hbyte]

/-- Whatever follows a header in the source, the parser takes the header and reports each
of its entries. -/
theorem parse_encode {header : Header} (h : header.Fits)
    (hsize : header.encode.length ≤ MAX_HEADER_BYTES) (t : List UInt8) :
    ∃ parsed s, parse (Source.ofBytes (header.encode ++ t)) = .ok parsed s ∧
      s.position = header.encode.length ∧
      parsed.version = header.version ∧ parsed.tensorCount = header.tensorCount ∧
      parsed.metadataCount = header.entries.length ∧
      ∀ key value, parsed.metadata.lookup key = some value ↔
        ∃ v, (key, v) ∈ header.entries ∧ value = v.summarise := by
  obtain ⟨s, hrun, -, hposition, -⟩ := parses_header h _ (next_ofBytes header.encode t _) hsize
  refine ⟨_, s, hrun, hposition.trans (Nat.zero_add _), rfl, rfl, rfl, fun key value => ?_⟩
  have hempty : (∅ : Table String MetadataValue).lookup key ≠ some value := by simp
  rw [lookup_entriesOf h.distinct (fun _ _ => AList.lookup_empty _), or_iff_right hempty]

/-- An array of an array of text, and an array too long to be kept. -/
def sampleHeader : Header where
  version := 3
  tensorCount := 2
  entries := [
    ("names", .array .array [.array .string [.string "a"], .array .u8 []]),
    ("flags", .array .bool (List.replicate 65 (.bool true)))]

theorem sampleHeader_fits : sampleHeader.Fits where
  version := .inr rfl
  tensorCount := by decide
  count := by decide
  distinct := by decide
  keys := by decide
  values := by
    have htext : "a".utf8ByteSize ≤ 16777216 := by decide
    simp [sampleHeader, Value.Fits, MAX_ARRAY_DEPTH, Value.type, MAX_ARRAY_LEN, MAX_STRING_BYTES, htext]

set_option maxRecDepth 4000 in
theorem sampleHeader_length : sampleHeader.encode.length = 180 := by decide

theorem parse_encode_sample :
    ∃ parsed s, parse (Source.ofBytes (sampleHeader.encode ++ [0xff])) = .ok parsed s ∧
      s.position = 180 ∧ parsed.version = 3 ∧ parsed.tensorCount = 2 ∧ parsed.metadataCount = 2 ∧
      ∀ key value, parsed.metadata.lookup key = some value ↔
        ∃ v, (key, v) ∈ sampleHeader.entries ∧ value = v.summarise := by
  have hsize : sampleHeader.encode.length ≤ MAX_HEADER_BYTES := by
    rw [sampleHeader_length]
    decide
  have hparse := parse_encode sampleHeader_fits hsize [0xff]
  rwa [sampleHeader_length] at hparse

end MehoyRuntime.Registry
