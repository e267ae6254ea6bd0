import Switchboard.Proofs.Text.Utf8

/-!
# UTF-8 has one spelling for each text

The decoder accepts a sequence of bytes only if they are the bytes of the character that it makes of
them: what it keeps out are the overlong forms, the surrogates and the numbers above the last
character. The main result, `Utf8.encode_of_decode`, says that encoding undoes decoding.
-/

namespace Switchboard.Utf8

/-- A number that is not a surrogate and not too big is the number of its character. -/
theorem toNat_ofNat {scalar : Nat}
    (h : scalar < 0xD800 ∨ 0xDFFF < scalar ∧ scalar < 0x110000) :
    (Char.ofNat scalar).toNat = scalar := by
  have hvalid : scalar.isValidChar := h
  simp [Char.ofNat, hvalid, Char.ofNatAux, Char.toNat]

section Characters

variable {scalar high second third fourth : Nat}

theorem encodeChar_one (h : scalar < 0x80) :
    encodeChar (Char.ofNat scalar) = [UInt8.ofNat scalar] := by
  have hvalid : scalar < 0xD800 ∨ 0xDFFF < scalar ∧ scalar < 0x110000 := by omega
  simp only [encodeChar, toNat_ofNat hvalid, if_pos h]

theorem encodeChar_two (hlow : 2 ≤ high) (hhigh : high < 32) (hsecond : second < 64) :
    encodeChar (Char.ofNat (high * 64 + second)) =
      [UInt8.ofNat (0xC0 + high), UInt8.ofNat (0x80 + second)] := by
  have hvalid : high * 64 + second < 0xD800 ∨
      0xDFFF < high * 64 + second ∧ high * 64 + second < 0x110000 := by omega
  have hfirstBits : (high * 64 + second) / 64 = high := by omega
  have hsecondBits : (high * 64 + second) % 64 = second := by omega
  simp only [encodeChar, toNat_ofNat hvalid]
  rw [if_neg (by omega), if_pos (by omega), hfirstBits, hsecondBits]

/-- Three bytes that are no overlong form and no surrogate spell a character. -/
theorem encodeChar_three (hhigh : high < 16) (hsecond : second < 64) (hthird : third < 64)
    (hoverlong : high = 0 → 0x20 ≤ second) (hsurrogate : high = 0xD → second < 0x20) :
    encodeChar (Char.ofNat ((high * 64 + second) * 64 + third)) =
      [UInt8.ofNat (0xE0 + high), UInt8.ofNat (0x80 + second), UInt8.ofNat (0x80 + third)] := by
  have hvalid : (high * 64 + second) * 64 + third < 0xD800 ∨
      0xDFFF < (high * 64 + second) * 64 + third ∧
        (high * 64 + second) * 64 + third < 0x110000 := by omega
  have hfirstBits : ((high * 64 + second) * 64 + third) / 4096 = high := by omega
  have hsecondBits : ((high * 64 + second) * 64 + third) / 64 % 64 = second := by omega
  have hthirdBits : ((high * 64 + second) * 64 + third) % 64 = third := by omega
  simp only [encodeChar, toNat_ofNat hvalid]
  rw [if_neg (by omega), if_neg (by omega), if_pos (by omega), hfirstBits, hsecondBits, hthirdBits]

/-- Four bytes that are no overlong form and not above the last character spell a character. -/
theorem encodeChar_four (hhigh : high < 5) (hsecond : second < 64) (hthird : third < 64)
    (hfourth : fourth < 64) (hoverlong : high = 0 → 0x10 ≤ second)
    (hlast : high = 4 → second < 0x10) :
    encodeChar (Char.ofNat (((high * 64 + second) * 64 + third) * 64 + fourth)) =
      [UInt8.ofNat (0xF0 + high), UInt8.ofNat (0x80 + second), UInt8.ofNat (0x80 + third),
        UInt8.ofNat (0x80 + fourth)] := by
  have hvalid : ((high * 64 + second) * 64 + third) * 64 + fourth < 0xD800 ∨
      0xDFFF < ((high * 64 + second) * 64 + third) * 64 + fourth ∧
        ((high * 64 + second) * 64 + third) * 64 + fourth < 0x110000 := by omega
  have hfirstBits : (((high * 64 + second) * 64 + third) * 64 + fourth) / 262144 = high := by omega
  have hsecondBits : (((high * 64 + second) * 64 + third) * 64 + fourth) / 4096 % 64 = second := by
    omega
  have hthirdBits : (((high * 64 + second) * 64 + third) * 64 + fourth) / 64 % 64 = third := by
    omega
  have hfourthBits : (((high * 64 + second) * 64 + third) * 64 + fourth) % 64 = fourth := by omega
  simp only [encodeChar, toNat_ofNat hvalid]
  rw [if_neg (by omega), if_neg (by omega), if_neg (by omega), hfirstBits, hsecondBits, hthirdBits,
    hfourthBits]

end Characters

theorem exists_ofNat (byte : UInt8) : ∃ n, n < 256 ∧ byte = UInt8.ofNat n :=
  ⟨byte.toNat, byte.toNat_lt, UInt8.ofNat_toNat.symm⟩

/-- What a byte can begin: a character of its own, or a sequence of two, three or four bytes. -/
theorem Lead.ofByte_cases (byte : UInt8) :
    (∃ scalar < 0x80, byte = UInt8.ofNat scalar ∧ ofByte byte = .char (Char.ofNat scalar)) ∨
    (∃ high, 2 ≤ high ∧ high < 32 ∧ byte = UInt8.ofNat (0xC0 + high) ∧
      ofByte byte = .sequence { missing := 1, seen := 1, bits := high }) ∨
    (∃ high < 16, byte = UInt8.ofNat (0xE0 + high) ∧
      ofByte byte = .sequence
        { missing := 2, seen := 1, bits := high
          low := if 0xE0 + high = 0xE0 then 0xA0 else 0x80
          high := if 0xE0 + high = 0xED then 0x9F else 0xBF }) ∨
    (∃ high < 5, byte = UInt8.ofNat (0xF0 + high) ∧
      ofByte byte = .sequence
        { missing := 3, seen := 1, bits := high
          low := if 0xF0 + high = 0xF0 then 0x90 else 0x80
          high := if 0xF0 + high = 0xF4 then 0x8F else 0xBF }) ∨
    ofByte byte = .invalid := by
  obtain ⟨n, hn, rfl⟩ := exists_ofNat byte
  by_cases hone : n < 0x80
  · refine .inl ⟨n, hone, rfl, ?_⟩
    rw [ofByte, toNat_byte hn, if_pos hone]
  by_cases hinvalid : n < 0xC2 ∨ 0xF5 ≤ n
  · refine .inr (.inr (.inr (.inr ?_)))
    rw [ofByte, toNat_byte hn, if_neg hone]
    rcases hinvalid with hlow | hhigh
    · rw [if_pos hlow]
    · rw [if_neg (by omega), if_neg (by omega), if_neg (by omega), if_neg (by omega)]
  by_cases htwo : n < 0xE0
  · have hbyte : UInt8.ofNat n = UInt8.ofNat (0xC0 + (n - 0xC0)) := by
      rw [Nat.add_sub_cancel' (by omega)]
    refine .inr (.inl ⟨n - 0xC0, by omega, by omega, hbyte, ?_⟩)
    rw [hbyte, ofByte_two (by omega) (by omega)]
  by_cases hthree : n < 0xF0
  · have hbyte : UInt8.ofNat n = UInt8.ofNat (0xE0 + (n - 0xE0)) := by
      rw [Nat.add_sub_cancel' (by omega)]
    refine .inr (.inr (.inl ⟨n - 0xE0, by omega, hbyte, ?_⟩))
    rw [hbyte, ofByte_three (by omega)]
  · have hbyte : UInt8.ofNat n = UInt8.ofNat (0xF0 + (n - 0xF0)) := by
      rw [Nat.add_sub_cancel' (by omega)]
    refine .inr (.inr (.inr (.inl ⟨n - 0xF0, by omega, hbyte, ?_⟩)))
    rw [hbyte, ofByte_four (by omega)]

section Sequences

variable {index missing : Nat} {opened : Open} {bytes : Bytes} {chars : List Char}

/-- A sequence goes on only with a byte in its range, which carries six bits. -/
theorem exists_of_decodeFrom_open (hlow : 0x80 ≤ opened.low) (hhigh : opened.high ≤ 0xBF)
    (h : decodeFrom index (some opened) bytes = .ok chars) :
    ∃ bits rest, bits < 64 ∧ opened.low ≤ 0x80 + bits ∧ 0x80 + bits ≤ opened.high ∧
      bytes = UInt8.ofNat (0x80 + bits) :: rest := by
  cases bytes with
  | nil => cases h
  | cons byte rest =>
      by_cases hrange : opened.low ≤ byte.toNat ∧ byte.toNat ≤ opened.high
      · have hvalue : 0x80 + (byte.toNat - 0x80) = byte.toNat := by omega
        refine ⟨byte.toNat - 0x80, rest, by omega, by omega, by omega, ?_⟩
        rw [hvalue, UInt8.ofNat_toNat]
      · rw [decodeFrom, if_neg hrange] at h
        cases h

/-- The last byte of a sequence gives its character, and reading goes on behind it. -/
theorem exists_of_decodeFrom_last (hmissing : opened.missing = 1) (hlow : 0x80 ≤ opened.low)
    (hhigh : opened.high ≤ 0xBF) (h : decodeFrom index (some opened) bytes = .ok chars) :
    ∃ bits rest tail, bits < 64 ∧ opened.low ≤ 0x80 + bits ∧ 0x80 + bits ≤ opened.high ∧
      bytes = UInt8.ofNat (0x80 + bits) :: rest ∧
      chars = Char.ofNat (opened.bits * 64 + bits) :: tail ∧
      decodeFrom (index + opened.seen + 1) none rest = .ok tail := by
  obtain ⟨bits, rest, hbits, hbitsLow, hbitsHigh, rfl⟩ := exists_of_decodeFrom_open hlow hhigh h
  rw [decodeFrom_last index opened bits rest hmissing hbitsLow hbitsHigh (by omega)] at h
  cases hrest : decodeFrom (index + opened.seen + 1) none rest with
  | error fault =>
      rw [hrest] at h
      exact nomatch h
  | ok tail =>
      rw [hrest] at h
      cases h
      exact ⟨bits, rest, tail, hbits, hbitsLow, hbitsHigh, rfl, rfl, hrest⟩

/-- A byte before the last one leaves a sequence that misses one byte less. -/
theorem exists_of_decodeFrom_inside (hmissing : opened.missing = missing + 2)
    (hlow : 0x80 ≤ opened.low) (hhigh : opened.high ≤ 0xBF)
    (h : decodeFrom index (some opened) bytes = .ok chars) :
    ∃ bits rest, bits < 64 ∧ opened.low ≤ 0x80 + bits ∧ 0x80 + bits ≤ opened.high ∧
      bytes = UInt8.ofNat (0x80 + bits) :: rest ∧
      decodeFrom index (some
        { missing := missing + 1, seen := opened.seen + 1, bits := opened.bits * 64 + bits })
        rest = .ok chars := by
  obtain ⟨bits, rest, hbits, hbitsLow, hbitsHigh, rfl⟩ := exists_of_decodeFrom_open hlow hhigh h
  rw [decodeFrom_inside index opened missing bits rest hmissing hbitsLow hbitsHigh (by omega)] at h
  exact ⟨bits, rest, hbits, hbitsLow, hbitsHigh, rfl, h⟩

end Sequences

/-- What is read from some bytes begins with a character, and the bytes begin with its own. -/
theorem exists_of_decodeFrom_cons {index : Nat} {byte : UInt8} {bytes : Bytes} {chars : List Char}
    (h : decodeFrom index none (byte :: bytes) = .ok chars) :
    ∃ char tail next rest, chars = char :: tail ∧ byte :: bytes = encodeChar char ++ rest ∧
      decodeFrom next none rest = .ok tail := by
  rcases Lead.ofByte_cases byte with
    ⟨scalar, hscalar, hbyte, hlead⟩ | ⟨high, hlow, hhigh, hbyte, hlead⟩ |
    ⟨high, hhigh, hbyte, hlead⟩ | ⟨high, hhigh, hbyte, hlead⟩ | hlead
  · rw [decodeFrom_char hlead] at h
    cases hrest : decodeFrom (index + 1) none bytes with
    | error fault =>
        rw [hrest] at h
        cases h
    | ok tail =>
        rw [hrest] at h
        cases h
        refine ⟨_, tail, index + 1, bytes, rfl, ?_, hrest⟩
        rw [hbyte, encodeChar_one hscalar]
        rfl
  · rw [decodeFrom_lead hlead] at h
    obtain ⟨second, rest, tail, hsecond, -, -, rfl, rfl, hrest⟩ :=
      exists_of_decodeFrom_last rfl (Nat.le_refl _) (Nat.le_refl _) h
    refine ⟨_, tail, _, rest, rfl, ?_, hrest⟩
    rw [hbyte, encodeChar_two hlow hhigh hsecond]
    rfl
  · rw [decodeFrom_lead hlead] at h
    obtain ⟨second, rest, hsecond, hleast, hmost, rfl, hinside⟩ :=
      exists_of_decodeFrom_inside rfl (by dsimp only; split <;> omega)
        (by dsimp only; split <;> omega) h
    obtain ⟨third, rest, tail, hthird, -, -, rfl, rfl, hrest⟩ :=
      exists_of_decodeFrom_last rfl (Nat.le_refl _) (Nat.le_refl _) hinside
    -- The narrowed range of the second byte keeps out overlong forms and surrogates.
    dsimp only at hleast hmost
    have hoverlong : high = 0 → 0x20 ≤ second := by
      intro hzero
      rw [if_pos (by omega)] at hleast
      omega
    have hsurrogate : high = 0xD → second < 0x20 := by
      intro hthirteen
      rw [if_pos (by omega)] at hmost
      omega
    refine ⟨_, tail, _, rest, rfl, ?_, hrest⟩
    rw [hbyte, encodeChar_three hhigh hsecond hthird hoverlong hsurrogate]
    rfl
  · rw [decodeFrom_lead hlead] at h
    obtain ⟨second, rest, hsecond, hleast, hmost, rfl, hinside⟩ :=
      exists_of_decodeFrom_inside rfl (by dsimp only; split <;> omega)
        (by dsimp only; split <;> omega) h
    obtain ⟨third, rest, hthird, -, -, rfl, hlater⟩ :=
      exists_of_decodeFrom_inside rfl (Nat.le_refl _) (Nat.le_refl _) hinside
    obtain ⟨fourth, rest, tail, hfourth, -, -, rfl, rfl, hrest⟩ :=
      exists_of_decodeFrom_last rfl (Nat.le_refl _) (Nat.le_refl _) hlater
    -- The narrowed range of the second byte keeps out overlong forms and too big numbers.
    dsimp only at hleast hmost
    have hoverlong : high = 0 → 0x10 ≤ second := by
      intro hzero
      rw [if_pos (by omega)] at hleast
      omega
    have hlast : high = 4 → second < 0x10 := by
      intro hfour
      rw [if_pos (by omega)] at hmost
      omega
    refine ⟨_, tail, _, rest, rfl, ?_, hrest⟩
    rw [hbyte, encodeChar_four hhigh hsecond hthird hfourth hoverlong hlast]
    rfl
  · rw [decodeFrom, hlead] at h
    cases h

theorem encode_of_decodeFrom {index : Nat} {bytes : Bytes} {chars : List Char}
    (h : decodeFrom index none bytes = .ok chars) : chars.flatMap encodeChar = bytes := by
  induction chars generalizing index bytes with
  | nil =>
      cases bytes with
      | nil => rfl
      | cons byte bytes =>
          obtain ⟨char, tail, next, rest, hchars, -, -⟩ := exists_of_decodeFrom_cons h
          exact nomatch hchars
  | cons char chars ih =>
      cases bytes with
      | nil => exact nomatch h
      | cons byte bytes =>
          obtain ⟨first, tail, next, rest, hchars, hbytes, hrest⟩ := exists_of_decodeFrom_cons h
          obtain ⟨rfl, rfl⟩ := List.cons.inj hchars
          rw [hbytes, List.flatMap_cons, ih hrest]

/-- Bytes that are read as a text are the bytes of this text. -/
theorem encode_of_decode {bytes : Bytes} {text : String} (h : decode bytes = .ok text) :
    encode text = bytes := by
  unfold decode at h
  cases hchars : decodeFrom 0 none bytes with
  | error fault =>
      rw [hchars] at h
      exact nomatch h
  | ok chars =>
      rw [hchars] at h
      cases h
      rw [encode, String.toList_ofList]
      exact encode_of_decodeFrom hchars

end Switchboard.Utf8
