import Mathlib.Data.List.Basic

/-!
# Text as bytes

The UTF-8 bytes of a string as a list, and the string that a list of bytes is.
-/

namespace Utf8

def bytesOf (text : String) : List UInt8 := text.toByteArray.data.toList

def textOf (bytes : List UInt8) : Option String := String.fromUTF8? ⟨bytes.toArray⟩

theorem bytesOf_append (a b : String) : bytesOf (a ++ b) = bytesOf a ++ bytesOf b := by
  simp [bytesOf, ByteArray.data_append]

theorem bytesOf_length (text : String) : (bytesOf text).length = text.utf8ByteSize := rfl

theorem bytesOf_textOf {bytes : List UInt8} {text : String} (h : textOf bytes = some text) :
    bytesOf text = bytes := by
  unfold textOf String.fromUTF8? at h
  split at h
  · cases h
    rfl
  · cases h

theorem textOf_bytesOf (text : String) : textOf (bytesOf text) = some text := by
  unfold textOf String.fromUTF8?
  exact dif_pos text.isValidUTF8

theorem bytesOf_injective : Function.Injective bytesOf := by
  intro a b h
  have htext := textOf_bytesOf a
  rw [h, textOf_bytesOf] at htext
  exact (Option.some.inj htext).symm

theorem bytesOf_eq_flatMap (text : String) :
    bytesOf text = text.toList.flatMap String.utf8EncodeChar := by
  rw [bytesOf, ← String.utf8Encode_toList, List.utf8Encode, List.toList_data_toByteArray]

/-- One byte for each character. -/
theorem bytesOf_ascii {text : String} (h : ∀ c ∈ text.toList, c.utf8Size = 1) :
    bytesOf text = text.toList.map (·.val.toUInt8) := by
  rw [bytesOf_eq_flatMap]
  generalize text.toList = chars at h
  induction chars with
  | nil => rfl
  | cons c chars ih =>
    have hrest := ih fun other hother => h other (List.mem_cons_of_mem c hother)
    rw [List.flatMap_cons, String.utf8EncodeChar_eq_singleton (h c List.mem_cons_self), hrest]
    rfl

end Utf8
