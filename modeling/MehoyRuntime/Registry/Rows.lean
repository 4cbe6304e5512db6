import Mathlib.Data.List.Lex
import Mathlib.Data.List.Sort
import MehoyRuntime.Registry.GgufPrefix
import MehoyRuntime.Registry.Provenance

/-!
# The tables of the registry

`insert` binds nineteen parameters by position, `row_to_artifact` reads them back by position,
and the entries of a header go to a table of their own. Integers are signed, text and bytes are
kept as they are, and text is ordered by its bytes.
-/

namespace MehoyRuntime.Registry
open MehoyRuntime.Core TransitionSystem Filesystem KeyedTable

/-! ### What is stored of a value -/

namespace F64

def negativeSign (x : F64) : Bool := x.bits >>> 63 = 1

def exponent (x : F64) : ℕ := ((x.bits >>> 52) &&& 0x7ff).toNat

def fraction (x : F64) : ℕ := (x.bits &&& 0xfffffffffffff).toNat

def significand (x : F64) : ℕ := if x.exponent = 0 then x.fraction else x.fraction + 2 ^ 52

/-- So many quarters of the last place of `x`, in units of `10 ^ -340 * 2 ^ -1076`. -/
def scaled (x : F64) (quarters : ℕ) : ℕ := quarters * 2 ^ (max x.exponent 1 - 1) * 10 ^ 340

/-- The decimal `n * 10 ^ (k - 340)` reads back as `x`. -/
def readsBack (x : F64) (k n : ℕ) : Bool :=
  let low := scaled x (4 * x.significand - if x.fraction = 0 ∧ 1 < x.exponent then 1 else 2)
  let high := scaled x (4 * x.significand + 2)
  let value := n * 10 ^ k * 2 ^ 1076
  (low < value && value < high) || (x.significand % 2 = 0 && (low = value || value = high))

/-- The multiple of `10 ^ (k - 340)` closest to `x` among those that read back as `x`. -/
def nearest (x : F64) (k : ℕ) : Option ℕ :=
  let value := scaled x (4 * x.significand)
  let step := 10 ^ k * 2 ^ 1076
  let below := value / step
  let closer := if 2 * (value % step) ≤ step then [below, below + 1] else [below + 1, below]
  closer.find? fun n => 0 < n && x.readsBack k n

/-- The digits of `n * 10 ^ (k - 340)` with its decimal point, no exponent. -/
def layout (n k : ℕ) : String :=
  if 340 ≤ k then toString n ++ String.ofList (List.replicate (k - 340) '0')
  else
    let places := 340 - k
    let digits := (toString n).toList
    let padded := List.replicate (places + 1 - digits.length) '0' ++ digits
    String.ofList (padded.take (padded.length - places)) ++ "." ++
      String.ofList (padded.drop (padded.length - places))

/-- The shortest decimal that reads back as the number, as the formatter prints it. -/
def display (x : F64) : String :=
  if x.exponent = 2047 ∧ x.fraction ≠ 0 then "NaN"
  else
    (if x.negativeSign then "-" else "") ++
      if x.exponent = 2047 then "inf"
      else if x.significand = 0 then "0"
      else
        match (List.range 650).reverse.findSome? fun k => (x.nearest k).map fun n => (n, k) with
        | some (n, k) => layout n k
        | none => ""

end F64

def renderValue : MetadataValue → String
  | .string text => text
  | .bool flag => toString flag
  | .u8 v => toString v.toNat
  | .i8 v => toString v.toInt
  | .u16 v => toString v.toNat
  | .i16 v => toString v.toInt
  | .u32 v => toString v.toNat
  | .i32 v => toString v.toInt
  | .u64 v => toString v.toNat
  | .i64 v => toString v.toInt
  | .f32 v => v.display
  | .f64 v => v.display
  | .array items => s!"[{items.length} items]"
  | .largeArray _ len => s!"[{len} items]"

/-- Keys are ordered by their bytes. -/
def keyBytes (key : String) : List ℕ := (Utf8.bytesOf key).map UInt8.toNat

def keyOrder {α : Type} (a b : String × α) : Bool := keyBytes a.1 ≤ keyBytes b.1

/-- The entries of a header as its table goes through them. -/
def GgufHeader.entries (header : GgufHeader) : List (String × MetadataValue) :=
  (header.metadata.entries.map fun entry => (entry.1, entry.2)).mergeSort keyOrder

/-! ### Rows -/

inductive SqlValue
  | null
  | integer (value : ℤ)
  | text (value : String)
  | blob (bytes : List UInt8)
  deriving DecidableEq, Repr

def SqlValue.optional {α : Type} (value : α → SqlValue) : Option α → SqlValue
  | some a => value a
  | none => .null

inductive ArtifactFormat
  | gguf
  deriving DecidableEq, Repr

def ArtifactFormat.asStr : ArtifactFormat → String
  | .gguf => "gguf"

def ArtifactFormat.fromStored (value : String) : Option ArtifactFormat :=
  if value = "gguf" then some .gguf else none

inductive DigestAlgorithm
  | sha256
  deriving DecidableEq, Repr

def DigestAlgorithm.asStr : DigestAlgorithm → String
  | .sha256 => "sha256"

def DigestAlgorithm.fromStored (value : String) : Option DigestAlgorithm :=
  if value = "sha256" then some .sha256 else none

abbrev Row := List SqlValue

def COLUMNS : List String :=
  ["id", "canonical_path", "format", "size_bytes", "container_version", "tensor_count",
    "metadata_count", "architecture", "name", "file_type", "context_length", "embedding_length",
    "tokenizer_model", "chat_template", "registered_at", "mtime_at_registration",
    "integrity_state", "digest_algorithm", "digest"]

inductive ColumnError
  | invalidIndex (column : ℕ)
  | invalidType (column : ℕ) (found : SqlValue)
  | outOfRange (column : ℕ) (value : ℤ)
  deriving DecidableEq, Repr

def SqlValue.typeName : SqlValue → String
  | .null => "Null"
  | .integer _ => "Integer"
  | .text _ => "Text"
  | .blob _ => "Blob"

def ColumnError.display : ColumnError → String
  | .invalidIndex column => s!"Invalid column index: {column}"
  | .invalidType column found =>
    s!"Invalid column type {found.typeName} at index: {column}, name: " ++ (COLUMNS[column]?).getD ""
  | .outOfRange column value => s!"Integer {value} out of range at index {column}"

namespace Row

def get (row : Row) (column : ℕ) : Except ColumnError SqlValue :=
  match row[column]? with
  | some value => .ok value
  | none => .error (.invalidIndex column)

def text (row : Row) (column : ℕ) : Except ColumnError String := do
  match ← row.get column with
  | .text value => return value
  | other => throw (.invalidType column other)

def integer (row : Row) (column : ℕ) : Except ColumnError ℤ := do
  match ← row.get column with
  | .integer value => return value
  | other => throw (.invalidType column other)

def u32 (row : Row) (column : ℕ) : Except ColumnError UInt32 := do
  let value ← row.integer column
  if 0 ≤ value ∧ value < 2 ^ 32 then return UInt32.ofNat value.toNat
  else throw (.outOfRange column value)

def optText (row : Row) (column : ℕ) : Except ColumnError (Option String) := do
  match ← row.get column with
  | .text value => return some value
  | .null => return none
  | other => throw (.invalidType column other)

def optInteger (row : Row) (column : ℕ) : Except ColumnError (Option ℤ) := do
  match ← row.get column with
  | .integer value => return some value
  | .null => return none
  | other => throw (.invalidType column other)

def optBlob (row : Row) (column : ℕ) : Except ColumnError (Option (List UInt8)) := do
  match ← row.get column with
  | .blob bytes => return some bytes
  | .null => return none
  | other => throw (.invalidType column other)

end Row

/-- The parameters of the insertion. -/
def insertParams (artifact : ModelArtifact) : Row :=
  [.text artifact.id,
    .text (toStringLossy artifact.path),
    .text ArtifactFormat.gguf.asStr,
    .integer (toSigned artifact.sizeBytes),
    .integer artifact.metadata.containerVersion.toNat,
    .integer (toSigned artifact.metadata.tensorCount),
    .integer (toSigned artifact.metadata.metadataCount),
    .optional .text artifact.metadata.architecture,
    .optional .text artifact.metadata.name,
    .optional .integer (artifact.metadata.fileType.map toSigned),
    .optional .integer (artifact.metadata.contextLength.map toSigned),
    .optional .integer (artifact.metadata.embeddingLength.map toSigned),
    .optional .text artifact.metadata.tokenizerModel,
    .optional .text artifact.metadata.chatTemplate,
    .integer (toEpoch artifact.registeredAt),
    .optional .integer (artifact.fingerprint.modifiedAt.map toEpochNanos),
    .text "unverified",
    .null,
    .null]

def storedIntegrity (state : String) (algorithm : Option String) (digest : Option (List UInt8)) :
    ArtifactIntegrity :=
  match algorithm, digest with
  | some algorithm, some digest =>
    if state = "verified" then
      match DigestAlgorithm.fromStored algorithm with
      | some .sha256 => .verified digest
      | none => .unverified
    else .unverified
  | _, _ => .unverified

def rowToArtifact (row : Row) : Except ColumnError (ArtifactFormat × ModelArtifact) := do
  let formatText ← row.text 2
  let integrityState ← row.text 16
  let digestAlgorithm ← row.optText 17
  let digest ← row.optBlob 18
  let modifiedAt ← row.optInteger 15
  let id ← row.text 0
  let path ← row.text 1
  let sizeBytes ← row.integer 3
  let containerVersion ← row.u32 4
  let tensorCount ← row.integer 5
  let metadataCount ← row.integer 6
  let architecture ← row.optText 7
  let name ← row.optText 8
  let fileType ← row.optInteger 9
  let contextLength ← row.optInteger 10
  let embeddingLength ← row.optInteger 11
  let tokenizerModel ← row.optText 12
  let chatTemplate ← row.optText 13
  let fingerprintSize ← row.integer 3
  let registeredAt ← row.integer 14
  return ((ArtifactFormat.fromStored formatText).getD .gguf, {
    id
    path := Utf8.bytesOf path
    sizeBytes := fromSigned sizeBytes
    metadata := {
      containerVersion
      tensorCount := fromSigned tensorCount
      metadataCount := fromSigned metadataCount
      architecture
      name
      fileType := fileType.map fromSigned
      contextLength := contextLength.map fromSigned
      embeddingLength := embeddingLength.map fromSigned
      tokenizerModel
      chatTemplate }
    integrity := storedIntegrity integrityState digestAlgorithm digest
    fingerprint := ⟨fromSigned fingerprintSize, modifiedAt.map fromEpochNanos⟩
    registeredAt := fromEpoch registeredAt })

/-- `UPDATE artifacts SET integrity_state, digest_algorithm, digest`. -/
def Row.verified (row : Row) (digest : List UInt8) : Row :=
  ((row.set 16 (.text "verified")).set 17 (.text DigestAlgorithm.sha256.asStr)).set 18 (.blob digest)

/-! ### A row read back -/

section Columns
variable {row : Row} {column : ℕ}

theorem Row.text_of {value : String} (h : row[column]? = some (.text value)) :
    row.text column = .ok value := by
  simp only [Row.text, Row.get, h]
  rfl

theorem Row.integer_of {value : ℤ} (h : row[column]? = some (.integer value)) :
    row.integer column = .ok value := by
  simp only [Row.integer, Row.get, h]
  rfl

theorem Row.u32_of {value : UInt32} (h : row[column]? = some (.integer value.toNat)) :
    row.u32 column = .ok value := by
  have hfits : 0 ≤ (value.toNat : ℤ) ∧ (value.toNat : ℤ) < 2 ^ 32 := by
    have hlt := value.toNat_lt
    omega
  simp only [Row.u32, Row.integer_of h, bind, Except.bind]
  rw [if_pos hfits, Int.toNat_natCast, UInt32.ofNat_toNat]
  rfl

theorem Row.optText_of {value : Option String} (h : row[column]? = some (.optional .text value)) :
    row.optText column = .ok value := by
  simp only [Row.optText, Row.get, h]
  cases value <;> rfl

theorem Row.optInteger_of {value : Option ℤ} (h : row[column]? = some (.optional .integer value)) :
    row.optInteger column = .ok value := by
  simp only [Row.optInteger, Row.get, h]
  cases value <;> rfl

theorem Row.optBlob_of {value : Option (List UInt8)}
    (h : row[column]? = some (.optional .blob value)) : row.optBlob column = .ok value := by
  simp only [Row.optBlob, Row.get, h]
  cases value <;> rfl

end Columns

/-- The columns of an artifact with those of its integrity. -/
def columns (artifact : ModelArtifact) (state : String) (algorithm : Option String)
    (digest : Option (List UInt8)) : Row :=
  (insertParams artifact).take 16 ++
    [.text state, .optional .text algorithm, .optional .blob digest]

theorem insertParams_columns (artifact : ModelArtifact) :
    insertParams artifact = columns artifact "unverified" none none := rfl

theorem verified_columns (artifact : ModelArtifact) (state : String) (algorithm : Option String)
    (digest : Option (List UInt8)) (digest' : List UInt8) :
    (columns artifact state algorithm digest).verified digest' =
      columns artifact "verified" (some "sha256") (some digest') := rfl

theorem ok_bind {ε α β : Type} (a : α) (f : α → Except ε β) : (Except.ok a >>= f) = f a := rfl

theorem rowToArtifact_columns (artifact : ModelArtifact) (state : String) (algorithm : Option String)
    (digest : Option (List UInt8)) :
    rowToArtifact (columns artifact state algorithm digest) =
      .ok (.gguf, { artifact.stored with integrity := storedIntegrity state algorithm digest }) := by
  have h0 : (columns artifact state algorithm digest).text 0 = .ok artifact.id := Row.text_of rfl
  have h1 : (columns artifact state algorithm digest).text 1 = .ok (toStringLossy artifact.path) :=
    Row.text_of rfl
  have h2 : (columns artifact state algorithm digest).text 2 = .ok ArtifactFormat.gguf.asStr :=
    Row.text_of rfl
  have h3 : (columns artifact state algorithm digest).integer 3 =
      .ok (toSigned artifact.sizeBytes) := Row.integer_of rfl
  have h4 : (columns artifact state algorithm digest).u32 4 =
      .ok artifact.metadata.containerVersion := Row.u32_of rfl
  have h5 : (columns artifact state algorithm digest).integer 5 =
      .ok (toSigned artifact.metadata.tensorCount) := Row.integer_of rfl
  have h6 : (columns artifact state algorithm digest).integer 6 =
      .ok (toSigned artifact.metadata.metadataCount) := Row.integer_of rfl
  have h7 : (columns artifact state algorithm digest).optText 7 =
      .ok artifact.metadata.architecture := Row.optText_of rfl
  have h8 : (columns artifact state algorithm digest).optText 8 = .ok artifact.metadata.name :=
    Row.optText_of rfl
  have h9 : (columns artifact state algorithm digest).optInteger 9 =
      .ok (artifact.metadata.fileType.map toSigned) := Row.optInteger_of rfl
  have h10 : (columns artifact state algorithm digest).optInteger 10 =
      .ok (artifact.metadata.contextLength.map toSigned) := Row.optInteger_of rfl
  have h11 : (columns artifact state algorithm digest).optInteger 11 =
      .ok (artifact.metadata.embeddingLength.map toSigned) := Row.optInteger_of rfl
  have h12 : (columns artifact state algorithm digest).optText 12 =
      .ok artifact.metadata.tokenizerModel := Row.optText_of rfl
  have h13 : (columns artifact state algorithm digest).optText 13 =
      .ok artifact.metadata.chatTemplate := Row.optText_of rfl
  have h14 : (columns artifact state algorithm digest).integer 14 =
      .ok (toEpoch artifact.registeredAt) := Row.integer_of rfl
  have h15 : (columns artifact state algorithm digest).optInteger 15 =
      .ok (artifact.fingerprint.modifiedAt.map toEpochNanos) := Row.optInteger_of rfl
  have h16 : (columns artifact state algorithm digest).text 16 = .ok state := Row.text_of rfl
  have h17 : (columns artifact state algorithm digest).optText 17 = .ok algorithm :=
    Row.optText_of rfl
  have h18 : (columns artifact state algorithm digest).optBlob 18 = .ok digest := Row.optBlob_of rfl
  generalize columns artifact state algorithm digest = row at *
  unfold rowToArtifact
  simp only [h0, h1, h2, h3, h4, h5, h6, h7, h8, h9, h10, h11, h12, h13, h14, h15, h16, h17, h18,
    ok_bind, Option.map_map]
  rfl

/-! ### Numbers that the columns keep -/

/-- The numbers of a header that the file alone bounds. -/
def GgufHeader.Storable (header : GgufHeader) : Prop :=
  ∀ n, header.number "general.file_type" = some n ∨
      header.architectureNumber "context_length" = some n ∨
      header.architectureNumber "embedding_length" = some n → (n : ℤ) ≤ i64Max

theorem stored_option_iff {value : Option ℕ} :
    (value.map fun n => fromSigned (toSigned n)) = value ↔ ∀ n, value = some n → (n : ℤ) ≤ i64Max := by
  cases value with
  | none => simp
  | some n => simp [fromSigned_toSigned_iff]

theorem bounded_ok {what : String} {value limit : ℕ} {s s' : Budgeted} {u : Unit}
    (h : Budgeted.bounded what value limit s = .ok u s') : value ≤ limit := by
  unfold Budgeted.bounded at h
  by_cases hlt : limit < value
  · rw [if_pos hlt] at h
    cases h
  · exact Nat.le_of_not_lt hlt

/-- The two counts are bounded before they are kept. -/
theorem parse_counts {source : Source} {header : GgufHeader} {rest : Budgeted}
    (h : parse source = .ok header rest) :
    header.tensorCount ≤ MAX_TENSOR_COUNT ∧ header.metadataCount ≤ MAX_METADATA_ENTRIES := by
  unfold parse readHeader at h
  obtain ⟨_, s₁, -, h⟩ := bind_ok h
  obtain ⟨magic, s₂, -, h⟩ := bind_ok h
  split at h
  · cases h
  · obtain ⟨version, s₃, -, h⟩ := bind_ok h
    split at h
    · cases h
    · obtain ⟨tensorCount, s₄, -, h⟩ := bind_ok h
      obtain ⟨_, s₅, htensors, h⟩ := bind_ok h
      obtain ⟨metadataCount, s₆, -, h⟩ := bind_ok h
      obtain ⟨_, s₇, hentries, h⟩ := bind_ok h
      obtain ⟨metadata, s₈, -, h⟩ := bind_ok h
      cases h
      exact ⟨bounded_ok htensors, bounded_ok hentries⟩

theorem fromHeader_stored_iff {source : Source} {header : GgufHeader} {rest : Budgeted}
    (h : parse source = .ok header rest) :
    (ArtifactMetadata.fromHeader header).stored = .fromHeader header ↔ header.Storable := by
  obtain ⟨htensors, hentries⟩ := parse_counts h
  have htensorCount : fromSigned (toSigned header.tensorCount) = header.tensorCount := by
    refine fromSigned_toSigned ?_
    simp only [MAX_TENSOR_COUNT, i64Max] at htensors ⊢
    omega
  have hmetadataCount : fromSigned (toSigned header.metadataCount) = header.metadataCount := by
    refine fromSigned_toSigned ?_
    simp only [MAX_METADATA_ENTRIES, i64Max] at hentries ⊢
    omega
  simp only [ArtifactMetadata.stored, ArtifactMetadata.fromHeader, ArtifactMetadata.mk.injEq,
    htensorCount, hmetadataCount, stored_option_iff, true_and, and_true]
  constructor
  · rintro ⟨hfile, hcontext, hembedding⟩ n (hn | hn | hn)
    · exact hfile n hn
    · exact hcontext n hn
    · exact hembedding n hn
  · intro hstorable
    exact ⟨fun n hn => hstorable n (.inl hn), fun n hn => hstorable n (.inr (.inl hn)),
      fun n hn => hstorable n (.inr (.inr hn))⟩

end MehoyRuntime.Registry
