import Mathlib.Tactic.Common

/-!
# Bytes that are texts

Bytes are read as a text if they are its UTF-8 encoding. What is read is determined by the bytes, and
a text at their end does not change whether they can be read.
-/

namespace Utf8

variable {bytes : List UInt8} {text : String}

/-- The encoding of a text. -/
def encode (text : String) : List UInt8 := text.toUTF8.data.toList

/-- The text that bytes encode, if they encode one. -/
def decode (bytes : List UInt8) : Option String := String.fromUTF8? ⟨bytes.toArray⟩

@[simp] lemma encode_append (a b : String) : encode (a ++ b) = encode a ++ encode b := by
  simp [encode]

@[simp] lemma encode_empty : encode "" = [] := rfl

lemma decode_eq_some_iff : decode bytes = some text ↔ encode text = bytes := by
  rw [decode, String.fromUTF8?]
  constructor
  · intro h
    split_ifs at h with hvalid
    obtain rfl := Option.some.inj h
    simp [encode, String.fromUTF8]
  · rintro rfl
    have hbytes : (⟨(encode text).toArray⟩ : ByteArray) = text.toByteArray := by simp [encode]
    rw [hbytes, dif_pos text.isValidUTF8]
    rfl

@[simp] lemma decode_encode (text : String) : decode (encode text) = some text :=
  decode_eq_some_iff.mpr rfl

lemma decode_eq_none_iff : decode bytes = none ↔ ∀ text, encode text ≠ bytes := by
  rw [Option.eq_none_iff_forall_ne_some]
  exact forall_congr' fun text => not_congr decode_eq_some_iff

/-- Bytes before a text that are a text with it are one without it. -/
lemma decode_append_eq_none_iff (text : String) :
    decode (bytes ++ encode text) = none ↔ decode bytes = none := by
  rw [decode_eq_none_iff, decode_eq_none_iff]
  constructor
  · intro h front hfront
    exact h (front ++ text) (by rw [encode_append, hfront])
  · intro h whole hwhole
    -- the text begins at a position of the whole
    have hbytes : whole.toByteArray = (⟨bytes.toArray⟩ : ByteArray) ++ text.toByteArray := by
      refine ByteArray.ext (Array.toList_inj.mp ?_)
      rw [ByteArray.toList_data_append]
      exact hwhole
    have hsize : bytes.length = (⟨bytes.toArray⟩ : ByteArray).size := by simp [ByteArray.size]
    have hvalid : (⟨bytes.length⟩ : String.Pos.Raw).IsValid whole := by
      rw [String.Pos.Raw.isValid_iff_isValidUTF8_extract_utf8ByteSize, String.utf8ByteSize, hbytes]
      refine ⟨?_, ?_⟩
      · rw [String.Pos.Raw.le_iff, String.byteIdx_rawEndPos, String.utf8ByteSize, hbytes]
        rw [ByteArray.size_append, hsize]
        exact Nat.le_add_right _ _
      · rw [ByteArray.extract_append_eq_right hsize ByteArray.size_append]
        exact text.isValidUTF8
    have hfront := hvalid.isValidUTF8_extract_zero
    rw [hbytes, ByteArray.extract_append_eq_left hsize] at hfront
    exact h ⟨_, hfront⟩ (by simp [encode])

end Utf8
