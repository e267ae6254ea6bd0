/-!
# Bytes and little-endian words

`Bytes` are what readers read and writers write. `Bytes.ofNat width n` lays the number `n` out in
`width` bytes, lowest first, and `Bytes.toNat` reads it back: `toNat_ofNat` and `ofNat_toNat` say
that each undoes the other. `Word α` says that the values of `α` are the numbers below `256 ^ width`.
-/

namespace Switchboard

/-- A string of bytes. -/
abbrev Bytes := List UInt8

namespace Bytes

/-- The `width` lowest base-256 digits of `n`, lowest first. -/
def ofNat : (width n : Nat) → Bytes
  | 0, _ => []
  | width + 1, n => UInt8.ofNat n :: ofNat width (n / 256)

/-- The number whose base-256 digits, lowest first, are the bytes. -/
def toNat : Bytes → Nat
  | [] => 0
  | byte :: bytes => byte.toNat + 256 * toNat bytes

@[simp]
theorem length_ofNat (width n : Nat) : (ofNat width n).length = width := by
  induction width generalizing n with
  | zero => rfl
  | succ width ih => simp [ofNat, ih]

theorem toNat_lt (bytes : Bytes) : toNat bytes < Nat.pow 256 bytes.length := by
  induction bytes with
  | nil => exact Nat.one_pos
  | cons byte bytes ih =>
    have hbyte := byte.toNat_lt
    show byte.toNat + 256 * toNat bytes < Nat.pow 256 bytes.length * 256
    omega

theorem toNat_ofNat {width n : Nat} (h : n < Nat.pow 256 width) : toNat (ofNat width n) = n := by
  induction width generalizing n with
  | zero => exact (Nat.lt_one_iff.1 h).symm
  | succ width ih =>
    have hrest : n / 256 < Nat.pow 256 width := by
      have hbound : n < Nat.pow 256 width * 256 := h
      omega
    simp only [ofNat, toNat, ih hrest, UInt8.toNat_ofNat']
    omega

theorem ofNat_toNat (bytes : Bytes) : ofNat bytes.length (toNat bytes) = bytes := by
  induction bytes with
  | nil => rfl
  | cons byte bytes ih =>
    have hbyte := byte.toNat_lt
    have hrest : (byte.toNat + 256 * toNat bytes) / 256 = toNat bytes := by omega
    have hhead : UInt8.ofNat (byte.toNat + 256 * toNat bytes) = byte := by
      apply UInt8.toNat_inj.1
      rw [UInt8.toNat_ofNat']
      omega
    simp only [List.length_cons, ofNat, toNat, hrest, hhead, ih]

end Bytes

/-- `Word α` says that the values of `α` are the numbers below `256 ^ width`, so that each of them
fills exactly `width` bytes. -/
class Word (α : Type) where
  width : Nat
  toNat : α → Nat
  ofNat : Nat → α
  toNat_lt (a : α) : toNat a < Nat.pow 256 width
  ofNat_toNat (a : α) : ofNat (toNat a) = a
  toNat_ofNat {n : Nat} (h : n < Nat.pow 256 width) : toNat (ofNat n) = n

instance : Word UInt8 where
  width := 1
  toNat := UInt8.toNat
  ofNat := UInt8.ofNat
  toNat_lt := UInt8.toNat_lt
  ofNat_toNat _ := UInt8.ofNat_toNat
  toNat_ofNat h := UInt8.toNat_ofNat_of_lt' h

instance : Word UInt16 where
  width := 2
  toNat := UInt16.toNat
  ofNat := UInt16.ofNat
  toNat_lt := UInt16.toNat_lt
  ofNat_toNat _ := UInt16.ofNat_toNat
  toNat_ofNat h := UInt16.toNat_ofNat_of_lt' h

instance : Word UInt32 where
  width := 4
  toNat := UInt32.toNat
  ofNat := UInt32.ofNat
  toNat_lt := UInt32.toNat_lt
  ofNat_toNat _ := UInt32.ofNat_toNat
  toNat_ofNat h := UInt32.toNat_ofNat_of_lt' h

instance : Word UInt64 where
  width := 8
  toNat := UInt64.toNat
  ofNat := UInt64.ofNat
  toNat_lt := UInt64.toNat_lt
  ofNat_toNat _ := UInt64.ofNat_toNat
  toNat_ofNat h := UInt64.toNat_ofNat_of_lt' h

/-- Signed words are laid out in two's complement. -/
instance : Word Int32 where
  width := 4
  toNat n := n.toUInt32.toNat
  ofNat n := (UInt32.ofNat n).toInt32
  toNat_lt n := n.toUInt32.toNat_lt
  ofNat_toNat n := by simp
  toNat_ofNat h := by simpa using UInt32.toNat_ofNat_of_lt' h

instance : Word Int64 where
  width := 8
  toNat n := n.toUInt64.toNat
  ofNat n := (UInt64.ofNat n).toInt64
  toNat_lt n := n.toUInt64.toNat_lt
  ofNat_toNat n := by simp
  toNat_ofNat h := by simpa using UInt64.toNat_ofNat_of_lt' h

end Switchboard
