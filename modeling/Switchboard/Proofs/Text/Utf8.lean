import Mathlib
import Switchboard.Text.Utf8

/-!
# Reading back what was written as UTF-8

The bytes of a character lead the decoder through as many steps as there are bytes, and the bits
collected on the way are those of the character. The main result, `Utf8.decode_encode`, says that
decoding undoes encoding.
-/

namespace Switchboard.Utf8

/-- A number that fits is what its byte holds. -/
theorem toNat_byte {n : Nat} (h : n < 256) : (UInt8.ofNat n).toNat = n := by
  rw [UInt8.toNat_ofNat']
  omega

theorem decodeFrom_char {byte : UInt8} {char : Char} (h : Lead.ofByte byte = .char char)
    (index : Nat) (rest : Bytes) :
    decodeFrom index none (byte :: rest) =
      (decodeFrom (index + 1) none rest).map (char :: ·) := by
  rw [decodeFrom, h]
  cases decodeFrom (index + 1) none rest <;> rfl

theorem decodeFrom_lead {byte : UInt8} {opened : Open} (h : Lead.ofByte byte = .sequence opened)
    (index : Nat) (rest : Bytes) :
    decodeFrom index none (byte :: rest) = decodeFrom index (some opened) rest := by
  rw [decodeFrom, h]

/-- The last byte of a sequence completes its character. -/
theorem decodeFrom_last (index : Nat) (opened : Open) (bits : Nat) (rest : Bytes)
    (hmissing : opened.missing = 1) (hlow : opened.low ≤ 0x80 + bits)
    (hhigh : 0x80 + bits ≤ opened.high) (hbyte : 0x80 + bits < 256) :
    decodeFrom index (some opened) (UInt8.ofNat (0x80 + bits) :: rest) =
      (decodeFrom (index + opened.seen + 1) none rest).map
        (Char.ofNat (opened.bits * 64 + bits) :: ·) := by
  have hvalue := toNat_byte hbyte
  have hbits : 0x80 + bits - 0x80 = bits := by omega
  rw [decodeFrom, hvalue, if_pos ⟨hlow, hhigh⟩, hmissing, hbits]
  cases decodeFrom (index + opened.seen + 1) none rest <;> rfl

/-- A byte inside a sequence adds six bits to it. -/
theorem decodeFrom_inside (index : Nat) (opened : Open) (missing bits : Nat) (rest : Bytes)
    (hmissing : opened.missing = missing + 2) (hlow : opened.low ≤ 0x80 + bits)
    (hhigh : 0x80 + bits ≤ opened.high) (hbyte : 0x80 + bits < 256) :
    decodeFrom index (some opened) (UInt8.ofNat (0x80 + bits) :: rest) =
      decodeFrom index (some
        { missing := missing + 1, seen := opened.seen + 1, bits := opened.bits * 64 + bits })
        rest := by
  have hvalue := toNat_byte hbyte
  have hbits : 0x80 + bits - 0x80 = bits := by omega
  rw [decodeFrom, hvalue, if_pos ⟨hlow, hhigh⟩, hmissing, hbits]

/-- A byte that begins a sequence of two bytes. Smaller ones would begin overlong forms. -/
theorem ofByte_two {high : Nat} (hlow : 2 ≤ high) (hhigh : high < 32) :
    Lead.ofByte (UInt8.ofNat (0xC0 + high)) =
      .sequence { missing := 1, seen := 1, bits := high } := by
  rw [Lead.ofByte, toNat_byte (by omega), if_neg (by omega), if_neg (by omega),
    if_pos (by omega), Nat.add_sub_cancel_left]

/-- A byte that begins a sequence of three bytes, and says which second byte may follow. -/
theorem ofByte_three {high : Nat} (hhigh : high < 16) :
    Lead.ofByte (UInt8.ofNat (0xE0 + high)) =
      .sequence
        { missing := 2, seen := 1, bits := high
          low := if 0xE0 + high = 0xE0 then 0xA0 else 0x80
          high := if 0xE0 + high = 0xED then 0x9F else 0xBF } := by
  rw [Lead.ofByte, toNat_byte (by omega), if_neg (by omega), if_neg (by omega),
    if_neg (by omega), if_pos (by omega), Nat.add_sub_cancel_left]

/-- A byte that begins a sequence of four bytes, and says which second byte may follow. -/
theorem ofByte_four {high : Nat} (hhigh : high < 5) :
    Lead.ofByte (UInt8.ofNat (0xF0 + high)) =
      .sequence
        { missing := 3, seen := 1, bits := high
          low := if 0xF0 + high = 0xF0 then 0x90 else 0x80
          high := if 0xF0 + high = 0xF4 then 0x8F else 0xBF } := by
  rw [Lead.ofByte, toNat_byte (by omega), if_neg (by omega), if_neg (by omega),
    if_neg (by omega), if_neg (by omega), if_pos (by omega), Nat.add_sub_cancel_left]

section Sequences

variable {scalar : Nat} (index : Nat) (rest : Bytes)

theorem decodeFrom_two (hlow : 0x80 ≤ scalar) (hhigh : scalar < 0x800) :
    decodeFrom index none
        (UInt8.ofNat (0xC0 + scalar / 64) :: UInt8.ofNat (0x80 + scalar % 64) :: rest) =
      (decodeFrom (index + 2) none rest).map (Char.ofNat scalar :: ·) := by
  have hlead : Lead.ofByte (UInt8.ofNat (0xC0 + scalar / 64)) = _ :=
    ofByte_two (by omega) (by omega)
  have hbits : scalar / 64 * 64 + scalar % 64 = scalar := by omega
  rw [decodeFrom_lead hlead,
    decodeFrom_last index _ (scalar % 64) rest rfl (by show 0x80 ≤ _; omega)
      (by show _ ≤ 0xBF; omega) (by omega), hbits]

theorem decodeFrom_three (hlow : 0x800 ≤ scalar) (hhigh : scalar < 0x10000)
    (hvalid : scalar < 0xD800 ∨ 0xDFFF < scalar) :
    decodeFrom index none
        (UInt8.ofNat (0xE0 + scalar / 4096) :: UInt8.ofNat (0x80 + scalar / 64 % 64) ::
          UInt8.ofNat (0x80 + scalar % 64) :: rest) =
      (decodeFrom (index + 3) none rest).map (Char.ofNat scalar :: ·) := by
  have hlead : Lead.ofByte (UInt8.ofNat (0xE0 + scalar / 4096)) = _ := ofByte_three (by omega)
  have hbits : (scalar / 4096 * 64 + scalar / 64 % 64) * 64 + scalar % 64 = scalar := by omega
  -- The number is not overlong and not a surrogate, so the second byte is in the narrowed range.
  have hsecond : (if 0xE0 + scalar / 4096 = 0xE0 then 0xA0 else 0x80) ≤ 0x80 + scalar / 64 % 64 ∧
      0x80 + scalar / 64 % 64 ≤ if 0xE0 + scalar / 4096 = 0xED then 0x9F else 0xBF := by
    constructor <;> split <;> omega
  rw [decodeFrom_lead hlead,
    decodeFrom_inside index _ 0 (scalar / 64 % 64) _ rfl hsecond.1 hsecond.2 (by omega),
    decodeFrom_last index _ (scalar % 64) rest rfl (by show 0x80 ≤ _; omega)
      (by show _ ≤ 0xBF; omega) (by omega), hbits]

theorem decodeFrom_four (hlow : 0x10000 ≤ scalar) (hhigh : scalar < 0x110000) :
    decodeFrom index none
        (UInt8.ofNat (0xF0 + scalar / 262144) :: UInt8.ofNat (0x80 + scalar / 4096 % 64) ::
          UInt8.ofNat (0x80 + scalar / 64 % 64) :: UInt8.ofNat (0x80 + scalar % 64) :: rest) =
      (decodeFrom (index + 4) none rest).map (Char.ofNat scalar :: ·) := by
  have hlead : Lead.ofByte (UInt8.ofNat (0xF0 + scalar / 262144)) = _ := ofByte_four (by omega)
  have hbits : ((scalar / 262144 * 64 + scalar / 4096 % 64) * 64 + scalar / 64 % 64) * 64 +
      scalar % 64 = scalar := by omega
  -- The number is not overlong and not too big, so the second byte is in the narrowed range.
  have hsecond :
      (if 0xF0 + scalar / 262144 = 0xF0 then 0x90 else 0x80) ≤ 0x80 + scalar / 4096 % 64 ∧
        0x80 + scalar / 4096 % 64 ≤ if 0xF0 + scalar / 262144 = 0xF4 then 0x8F else 0xBF := by
    constructor <;> split <;> omega
  rw [decodeFrom_lead hlead,
    decodeFrom_inside index _ 1 (scalar / 4096 % 64) _ rfl hsecond.1 hsecond.2 (by omega),
    decodeFrom_inside index _ 0 (scalar / 64 % 64) _ rfl (by show 0x80 ≤ _; omega)
      (by show _ ≤ 0xBF; omega) (by omega),
    decodeFrom_last index _ (scalar % 64) rest rfl (by show 0x80 ≤ _; omega)
      (by show _ ≤ 0xBF; omega) (by omega), hbits]

end Sequences

/-- The bytes of a character are read as this character. -/
theorem decodeFrom_encodeChar (char : Char) (index : Nat) (rest : Bytes) :
    decodeFrom index none (encodeChar char ++ rest) =
      (decodeFrom (index + (encodeChar char).length) none rest).map (char :: ·) := by
  have hvalid : char.toNat < 0xD800 ∨ 0xDFFF < char.toNat ∧ char.toNat < 0x110000 := char.valid
  have hchar := Char.ofNat_toNat char
  unfold encodeChar
  generalize char.toNat = scalar at hvalid hchar ⊢
  by_cases hone : scalar < 0x80
  · have hlead : Lead.ofByte (UInt8.ofNat scalar) = .char char := by
      rw [Lead.ofByte, toNat_byte (by omega), if_pos hone, hchar]
    simp only [hone, if_true]
    exact decodeFrom_char hlead index rest
  by_cases htwo : scalar < 0x800
  · have hdecode := decodeFrom_two index rest (Nat.le_of_not_lt hone) htwo
    rw [hchar] at hdecode
    simp only [hone, htwo, if_false, if_true]
    exact hdecode
  by_cases hthree : scalar < 0x10000
  · have hdecode := decodeFrom_three index rest (Nat.le_of_not_lt htwo) hthree (by omega)
    rw [hchar] at hdecode
    simp only [hone, htwo, hthree, if_false, if_true]
    exact hdecode
  · have hdecode := decodeFrom_four index rest (Nat.le_of_not_lt hthree) (by omega)
    rw [hchar] at hdecode
    simp only [hone, htwo, hthree, if_false]
    exact hdecode

theorem decodeFrom_encode (chars : List Char) (index : Nat) :
    decodeFrom index none (chars.flatMap encodeChar) = .ok chars := by
  induction chars generalizing index with
  | nil => rfl
  | cons char chars ih =>
      rw [List.flatMap_cons, decodeFrom_encodeChar, ih]
      rfl

/-- A text is read back from its bytes. -/
theorem decode_encode (text : String) : decode (encode text) = .ok text := by
  rw [decode, encode, decodeFrom_encode]
  show Except.ok (String.ofList text.toList) = _
  rw [String.ofList_toList]

end Switchboard.Utf8
