import Mathlib.Data.List.Basic

/-! # Lossy text

Bytes as text where they are UTF-8, a replacement character for each longest
piece that begins no character.
-/

namespace Utf8

/-- The second byte may follow the first. -/
def secondFits (first second : UInt8) : Bool :=
  if first == 0xE0 then 0xA0 ≤ second && second ≤ 0xBF
  else if first == 0xED then 0x80 ≤ second && second ≤ 0x9F
  else if 0xE1 ≤ first && first ≤ 0xEF then 0x80 ≤ second && second ≤ 0xBF
  else if first == 0xF0 then 0x90 ≤ second && second ≤ 0xBF
  else if 0xF1 ≤ first && first ≤ 0xF3 then 0x80 ≤ second && second ≤ 0xBF
  else if first == 0xF4 then 0x80 ≤ second && second ≤ 0x8F
  else false

/-- How many bytes one replacement stands for, where no character begins. -/
def invalidLength : List UInt8 → Nat
  | first :: second :: third :: _ =>
      if secondFits first second then
        if 0xF0 ≤ first && 0x80 ≤ third && third ≤ 0xBF then 3 else 2
      else 1
  | [first, second] => if secondFits first second then 2 else 1
  | _ => 1

theorem invalidLength_pos (bytes : List UInt8) : 0 < invalidLength bytes := by
  rw [invalidLength.eq_def]
  split
  · split
    · split <;> decide
    · decide
  · split <;> decide
  · decide

/-- The characters of `String::from_utf8_lossy`. -/
def lossyChars (bytes : List UInt8) : List Char :=
  if _some : bytes = [] then []
  else
    match bytes.toByteArray.utf8DecodeChar? 0 with
    | some c => c :: lossyChars (bytes.drop c.utf8Size)
    | none => '\uFFFD' :: lossyChars (bytes.drop (invalidLength bytes))
termination_by bytes.length
decreasing_by
  · have := List.length_pos_iff.mpr _some
    have := c.utf8Size_pos
    rw [List.length_drop]
    omega
  · have := List.length_pos_iff.mpr _some
    have := invalidLength_pos bytes
    rw [List.length_drop]
    omega

def fromUtf8Lossy (bytes : List UInt8) : String := String.ofList (lossyChars bytes)

/-- The bytes of a text. -/
def encode (chars : List Char) : List UInt8 := chars.flatMap String.utf8EncodeChar

/-- Text is read as it was written. -/
theorem lossyChars_encode (chars : List Char) : lossyChars (encode chars) = chars := by
  induction chars with
  | nil => rw [encode, List.flatMap_nil, lossyChars, dif_pos rfl]
  | cons c chars ih =>
      have written : encode (c :: chars) = String.utf8EncodeChar c ++ encode chars :=
        List.flatMap_cons
      have nonempty : encode (c :: chars) ≠ [] := by
        rw [written]
        simp [String.utf8EncodeChar_ne_nil]
      have decoded : (encode (c :: chars)).toByteArray.utf8DecodeChar? 0 = some c := by
        rw [written, List.toByteArray_append]
        exact ByteArray.utf8DecodeChar?_utf8EncodeChar_append
      have rest : (encode (c :: chars)).drop c.utf8Size = encode chars := by
        rw [written, ← String.length_utf8EncodeChar c, List.drop_left]
      rw [lossyChars, dif_neg nonempty, decoded]
      simp only [rest, ih]

end Utf8
