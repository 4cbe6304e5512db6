import MehoyRuntime.Core.Inference
import MehoyRuntime.Lib.LittleEndian
import MehoyRuntime.Lib.Table
import MehoyRuntime.Lib.Utf8

/-!
# The GGUF header and metadata parser

`parse` over any source of bytes, under its budget. The state also records the work the
parser has done: no function reads the record. Floats are their bit patterns.
-/

namespace MehoyRuntime.Registry
open MehoyRuntime.Core LittleEndian KeyedTable

/-- `GGUF` in little-endian byte order. -/
def MAGIC : List UInt8 := [0x47, 0x47, 0x55, 0x46]

def SUPPORTED_VERSIONS : List UInt32 := [2, 3]

def MAX_METADATA_ENTRIES : ℕ := 1 <<< 20
def MAX_TENSOR_COUNT : ℕ := 1 <<< 24
def MAX_STRING_BYTES : ℕ := 16 <<< 20
def MAX_ARRAY_LEN : ℕ := 1 <<< 24
def MAX_HEADER_BYTES : ℕ := 64 <<< 20

/-- Longer arrays are summarised rather than retained. -/
def MAX_RETAINED_ARRAY_LEN : ℕ := 64

def MAX_ARRAY_DEPTH : ℕ := 4

/-- The largest `usize` of a 64-bit target. -/
def usizeMax : ℕ := 2 ^ 64 - 1

structure F64 where
  bits : UInt64
  deriving DecidableEq, Repr

inductive MetadataValue
  | u8 (value : UInt8)
  | i8 (value : Int8)
  | u16 (value : UInt16)
  | i16 (value : Int16)
  | u32 (value : UInt32)
  | i32 (value : Int32)
  | u64 (value : UInt64)
  | i64 (value : Int64)
  | f32 (value : F32)
  | f64 (value : F64)
  | bool (value : Bool)
  | string (value : String)
  | array (values : List MetadataValue)
  | largeArray (elementType : UInt32) (len : ℕ)

inductive GgufError
  | notGguf (found : List UInt8)
  | unsupportedVersion (version : UInt32)
  | implausible (what : String) (value limit : ℕ)
  | truncated (what : String)
  | overflow (what : String)
  | unknownValueType (typeId : UInt32)
  | invalidText (key : String)
  | io (err : String)
  deriving DecidableEq, Repr

structure GgufHeader where
  version : UInt32
  tensorCount : ℕ
  metadataCount : ℕ
  metadata : Table String MetadataValue

namespace MetadataValue

def asStr : MetadataValue → Option String
  | .string value => some value
  | _ => none

/-- Integers that are not negative, as a `u64`. -/
def asU64 : MetadataValue → Option ℕ
  | .u8 v => some v.toNat
  | .u16 v => some v.toNat
  | .u32 v => some v.toNat
  | .u64 v => some v.toNat
  | .i8 v => if 0 ≤ v.toInt then some v.toInt.toNat else none
  | .i16 v => if 0 ≤ v.toInt then some v.toInt.toNat else none
  | .i32 v => if 0 ≤ v.toInt then some v.toInt.toNat else none
  | .i64 v => if 0 ≤ v.toInt then some v.toInt.toNat else none
  | _ => none

end MetadataValue

namespace GgufHeader

def get (header : GgufHeader) (key : String) : Option MetadataValue := header.metadata.lookup key

def text (header : GgufHeader) (key : String) : Option String := (header.get key).bind (·.asStr)

def number (header : GgufHeader) (key : String) : Option ℕ := (header.get key).bind (·.asU64)

def architecture (header : GgufHeader) : Option String := header.text "general.architecture"

/-- A key qualified by the architecture. -/
def architectureNumber (header : GgufHeader) (suffix : String) : Option ℕ :=
  header.architecture.bind fun architecture => header.number s!"{architecture}.{suffix}"

end GgufHeader

/-! ### The budgeted reader -/

/-- What a source has at a position: a byte, its end, or a failure to read. -/
inductive Reading
  | byte (b : UInt8)
  | eof
  | failed (err : String)
  deriving DecidableEq, Repr

/-- What reading a source comes to, by position: it may end, fail or go on forever. -/
abbrev Source := ℕ → Reading

def Source.ofBytes (bytes : List UInt8) : Source := fun position =>
  match bytes[position]? with
  | some b => .byte b
  | none => .eof

/-- A record of the parser's work: string buffers with the budget there was when their
length was read, the deepest array entered, the most children of an array built, the turns
of its loops over elements and entries, and the values it kept. -/
structure Work where
  buffers : List (ℕ × ℕ)
  deepest : ℕ
  widest : ℕ
  iterations : ℕ
  retained : ℕ
  deriving DecidableEq, Repr

structure Budgeted where
  source : Source
  position : ℕ
  remaining : ℕ
  work : Work

def Budgeted.new (source : Source) (budget : ℕ) : Budgeted := ⟨source, 0, budget, ⟨[], 0, 0, 0, 0⟩⟩

abbrev Parse := EStateM GgufError Budgeted

namespace Budgeted

def record (f : Work → Work) : Parse Unit := modify fun s => { s with work := f s.work }

def take (amount : ℕ) (what : String) : Parse Unit := fun s =>
  if amount ≤ s.remaining then .ok () { s with remaining := s.remaining - amount }
  else .error ( GgufError.implausible what amount s.remaining) s

/-- `read_exact` of so many bytes, after those read so far. -/
def readExactOrTruncated (what : String) : ℕ → List UInt8 → Parse (List UInt8)
  | 0, buf => pure buf
  | n + 1, buf => fun s =>
    match s.source s.position with
    | .byte b => readExactOrTruncated what n (buf ++ [b]) { s with position := s.position + 1 }
    | .eof => .error (.truncated what) s
    | .failed err => .error (.io err) s

/-- A number of so many bytes. -/
def number (width : ℕ) (what : String) : Parse ℕ := do
  take width what
  let buf ← readExactOrTruncated what width []
  return leNat buf

def u8 (what : String) : Parse UInt8 := return UInt8.ofNat (← number 1 what)
def u16 (what : String) : Parse UInt16 := return UInt16.ofNat (← number 2 what)
def u32 (what : String) : Parse UInt32 := return UInt32.ofNat (← number 4 what)
def u64 (what : String) : Parse UInt64 := return UInt64.ofNat (← number 8 what)

/-- A count or a length is bounded before it is used. -/
def bounded (what : String) (value limit : ℕ) : Parse Unit :=
  if limit < value then throw ( GgufError.implausible what value limit) else pure ()

/-- `string` once its length is bounded. The budget is only looked at for the record. -/
def stringContents (len : ℕ) (what : String) : Parse String := do
  let budget ← fun s => .ok s.remaining s
  take len "string contents"
  if usizeMax < len then throw (.overflow "string length")
  else
    record fun work => { work with buffers := work.buffers ++ [(len, budget)] }
    let buf ← readExactOrTruncated what len []
    match Utf8.textOf buf with
    | some text => return text
    | none => throw (.invalidText what)

def string (what : String) : Parse String := do
  let len ← u64 what
  bounded "string length" len.toNat MAX_STRING_BYTES
  stringContents len.toNat what

end Budgeted
open Budgeted

/-! ### Values -/

/-- The loop over the elements of an array, after those kept so far. -/
def readElements (readElement : Parse MetadataValue) (retain : Bool) :
    ℕ → List MetadataValue → Parse (List MetadataValue)
  | 0, retained => pure retained
  | n + 1, retained => do
    record fun work => { work with iterations := work.iterations + 1 }
    let value ← readElement
    if retain then
      record fun work => { work with retained := work.retained + 1 }
      readElements readElement retain n (retained ++ [value])
    else readElements readElement retain n retained

/-- `read_array` past its check of the depth. -/
def readArray (depth : ℕ) (readElement : UInt32 → Parse MetadataValue) : Parse MetadataValue := do
  record fun work => { work with deepest := max work.deepest (depth + 1) }
  let elementType ← u32 "array element type"
  let len ← u64 "array length"
  bounded "array length" len.toNat MAX_ARRAY_LEN
  let retain := decide (min len.toNat usizeMax ≤ MAX_RETAINED_ARRAY_LEN)
  let retained ← readElements (readElement elementType) retain len.toNat []
  if retain then
    record fun work => { work with widest := max work.widest retained.length }
    return .array retained
  else return .largeArray elementType len.toNat

/-- The arms of `read_value`, the one for arrays given. -/
def readTyped (array : Parse MetadataValue) (typeId : UInt32) : Parse MetadataValue :=
  match typeId with
  | 0 => return .u8 (← u8 "uint8")
  | 1 => return .i8 (← u8 "int8").toInt8
  | 2 => return .u16 (← u16 "uint16")
  | 3 => return .i16 (← u16 "int16").toInt16
  | 4 => return .u32 (← u32 "uint32")
  | 5 => return .i32 (← u32 "int32").toInt32
  | 6 => return .f32 ⟨← u32 "float32"⟩
  | 7 => return .bool ((← u8 "bool") ≠ 0)
  | 8 => return .string (← string "string")
  | 9 => array
  | 10 => return .u64 (← u64 "uint64")
  | 11 => return .i64 (← u64 "int64").toInt64
  | 12 => return .f64 ⟨← u64 "float64"⟩
  | other => throw (.unknownValueType other)

/-- `read_value` and `read_array` at the depth `MAX_ARRAY_DEPTH - levels`: without a level
left, an array is refused. -/
def readValue : ℕ → UInt32 → Parse MetadataValue
  | 0 =>
    readTyped (throw
      ( GgufError.implausible "array nesting depth" (MAX_ARRAY_DEPTH + 1) MAX_ARRAY_DEPTH))
  | levels + 1 => readTyped (readArray (MAX_ARRAY_DEPTH - (levels + 1)) (readValue levels))

/-- The loop over the metadata entries. -/
def readEntries : ℕ → Table String MetadataValue → Parse (Table String MetadataValue)
  | 0, metadata => pure metadata
  | n + 1, metadata => do
    record fun work => { work with iterations := work.iterations + 1 }
    let key ← string "metadata key"
    let typeId ← u32 "metadata value type"
    let value ← readValue MAX_ARRAY_DEPTH typeId
    record fun work => { work with retained := work.retained + 1 }
    readEntries n (metadata.insert key value)

def readHeader : Parse GgufHeader := do
  take 4 "magic"
  let magic ← readExactOrTruncated "magic" 4 []
  if magic ≠ MAGIC then throw (.notGguf magic)
  else
    let version ← u32 "version"
    if version ∉ SUPPORTED_VERSIONS then throw (.unsupportedVersion version)
    else
      let tensorCount ← u64 "tensor count"
      bounded "tensor count" tensorCount.toNat MAX_TENSOR_COUNT
      let metadataCount ← u64 "metadata count"
      bounded "metadata count" metadataCount.toNat MAX_METADATA_ENTRIES
      let metadata ← readEntries metadataCount.toNat ∅
      return ⟨version, tensorCount.toNat, metadataCount.toNat, metadata⟩

/-- `parse`, with the reader it leaves behind. -/
def parse (source : Source) : EStateM.Result GgufError Budgeted GgufHeader :=
  readHeader (.new source MAX_HEADER_BYTES)

end MehoyRuntime.Registry
