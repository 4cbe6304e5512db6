import Mathlib.Algebra.Group.Int.Defs
import MehoyRuntime.Registry.Gguf
import MehoyRuntime.Stream.Sse

/-!
# Artifacts and their records

What a registration finds out about a file, and what is left of it once it has been
stored and read back. Times are nanoseconds from the epoch, before it too. A path is any
bytes, but its record is text.
-/

namespace MehoyRuntime.Registry

/-- The largest signed 64-bit integer, which is all that the storage takes. -/
def i64Max : ℤ := 2 ^ 63 - 1

def toSigned (value : ℕ) : ℤ := min value i64Max

def fromSigned (value : ℤ) : ℕ := value.toNat

/-- A time before the epoch becomes the epoch. -/
def toEpochNanos (time : ℤ) : ℤ := min (max time 0) i64Max

def fromEpochNanos (nanos : ℤ) : ℤ := max nanos 0

/-- A time of registration keeps its whole seconds. -/
def toEpoch (time : ℤ) : ℤ := min (max time 0 / 10 ^ 9) i64Max

def fromEpoch (seconds : ℤ) : ℤ := max seconds 0 * 10 ^ 9

abbrev PathBuf := List UInt8

def toStringLossy (path : PathBuf) : String :=
  (Utf8.textOf path).getD (Stream.fromUtf8Lossy (path.length + 1) path)

/-- The path that a record's text is read back as. -/
def PathBuf.stored (path : PathBuf) : PathBuf := Utf8.bytesOf (toStringLossy path)

structure ArtifactFingerprint where
  sizeBytes : ℕ
  modifiedAt : Option ℤ
  deriving DecidableEq, Repr

structure ArtifactMetadata where
  containerVersion : UInt32
  tensorCount : ℕ
  metadataCount : ℕ
  architecture : Option String
  name : Option String
  fileType : Option ℕ
  contextLength : Option ℕ
  embeddingLength : Option ℕ
  tokenizerModel : Option String
  chatTemplate : Option String
  deriving DecidableEq, Repr

def ArtifactMetadata.fromHeader (header : GgufHeader) : ArtifactMetadata where
  containerVersion := header.version
  tensorCount := header.tensorCount
  metadataCount := header.metadataCount
  architecture := header.architecture
  name := header.text "general.name"
  fileType := header.number "general.file_type"
  contextLength := header.architectureNumber "context_length"
  embeddingLength := header.architectureNumber "embedding_length"
  tokenizerModel := header.text "tokenizer.ggml.model"
  chatTemplate := header.text "tokenizer.chat_template"

inductive ArtifactIntegrity
  | unverified
  | verified (digest : List UInt8)
  deriving DecidableEq, Repr

/-- Every artifact is a GGUF file. -/
structure ModelArtifact where
  id : String
  path : PathBuf
  sizeBytes : ℕ
  metadata : ArtifactMetadata
  integrity : ArtifactIntegrity
  fingerprint : ArtifactFingerprint
  registeredAt : ℤ
  deriving DecidableEq, Repr

def ArtifactFingerprint.stored (fingerprint : ArtifactFingerprint) : ArtifactFingerprint where
  sizeBytes := fromSigned (toSigned fingerprint.sizeBytes)
  modifiedAt := fingerprint.modifiedAt.map fun time => fromEpochNanos (toEpochNanos time)

def ArtifactMetadata.stored (metadata : ArtifactMetadata) : ArtifactMetadata :=
  { metadata with
    tensorCount := fromSigned (toSigned metadata.tensorCount)
    metadataCount := fromSigned (toSigned metadata.metadataCount)
    fileType := metadata.fileType.map fun n => fromSigned (toSigned n)
    contextLength := metadata.contextLength.map fun n => fromSigned (toSigned n)
    embeddingLength := metadata.embeddingLength.map fun n => fromSigned (toSigned n) }

/-- What `get` returns of what `insert` wrote. -/
def ModelArtifact.stored (artifact : ModelArtifact) : ModelArtifact :=
  { artifact with
    path := artifact.path.stored
    sizeBytes := fromSigned (toSigned artifact.sizeBytes)
    metadata := artifact.metadata.stored
    integrity := .unverified
    fingerprint := ⟨fromSigned (toSigned artifact.sizeBytes), artifact.fingerprint.stored.modifiedAt⟩
    registeredAt := fromEpoch (toEpoch artifact.registeredAt) }

theorem fromSigned_toSigned_iff {value : ℕ} :
    fromSigned (toSigned value) = value ↔ (value : ℤ) ≤ i64Max := by
  unfold fromSigned toSigned i64Max
  omega

theorem fromSigned_toSigned {value : ℕ} (h : (value : ℤ) ≤ i64Max) :
    fromSigned (toSigned value) = value := fromSigned_toSigned_iff.mpr h

theorem fromEpochNanos_toEpochNanos_iff {time : ℤ} :
    fromEpochNanos (toEpochNanos time) = time ↔ 0 ≤ time ∧ time ≤ i64Max := by
  unfold fromEpochNanos toEpochNanos i64Max
  omega

theorem fromEpochNanos_toEpochNanos {time : ℤ} (h : 0 ≤ time) (h' : time ≤ i64Max) :
    fromEpochNanos (toEpochNanos time) = time := fromEpochNanos_toEpochNanos_iff.mpr ⟨h, h'⟩

theorem PathBuf.stored_of_text {path : PathBuf} {text : String} (h : Utf8.textOf path = some text) :
    path.stored = path := by
  rw [PathBuf.stored, toStringLossy, h, Option.getD_some]
  exact Utf8.bytesOf_textOf h

theorem PathBuf.text_of_stored {path : PathBuf} (h : path.stored = path) :
    (Utf8.textOf path).isSome := by
  have htext := Utf8.textOf_bytesOf (toStringLossy path)
  replace h : Utf8.bytesOf (toStringLossy path) = path := h
  rw [h] at htext
  rw [htext]
  rfl

end MehoyRuntime.Registry
