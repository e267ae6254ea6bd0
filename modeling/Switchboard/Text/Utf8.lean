import Switchboard.Bytes

/-!
# UTF-8

`encode` lays a text out as UTF-8, and `decode` reads it back one byte at a time. Input that is not
UTF-8 is refused with a `Fault`, which says where the first ill-formed sequence starts and how many
of its bytes were still a beginning of some well-formed sequence.
-/

namespace Switchboard.Utf8

/-- The bytes of one character. -/
def encodeChar (char : Char) : Bytes :=
  let scalar := char.toNat
  if scalar < 0x80 then [.ofNat scalar]
  else if scalar < 0x800 then [.ofNat (0xC0 + scalar / 64), .ofNat (0x80 + scalar % 64)]
  else if scalar < 0x10000 then
    [.ofNat (0xE0 + scalar / 4096), .ofNat (0x80 + scalar / 64 % 64), .ofNat (0x80 + scalar % 64)]
  else
    [.ofNat (0xF0 + scalar / 262144), .ofNat (0x80 + scalar / 4096 % 64),
      .ofNat (0x80 + scalar / 64 % 64), .ofNat (0x80 + scalar % 64)]

/-- The bytes of a text. -/
def encode (text : String) : Bytes := text.toList.flatMap encodeChar

/-- Why bytes are not UTF-8: the sequence that starts at `index` goes wrong after `length` bytes, or
the input ends inside it. -/
inductive Fault where
  | malformed (length index : Nat)
  | incomplete (index : Nat)
  deriving DecidableEq, Repr

/-- The text of a fault in messages. -/
def Fault.message : Fault → String
  | .malformed length index => s!"invalid utf-8 sequence of {length} bytes from index {index}"
  | .incomplete index => s!"incomplete utf-8 byte sequence from index {index}"

/-- `Open` is a sequence that has begun: the bytes still `missing`, the bytes `seen`, the bits they
carried, and the least and the greatest byte that may come next. -/
structure Open where
  missing : Nat
  seen : Nat
  bits : Nat
  low : Nat := 0x80
  high : Nat := 0xBF

/-- What a byte begins: a character of its own, a longer sequence, or nothing. -/
inductive Lead where
  | char (char : Char)
  | sequence (opened : Open)
  | invalid

/-- Tells what a byte begins. The narrower ranges after `E0`, `ED`, `F0` and `F4` keep out the
overlong forms, the surrogates and the numbers above the last character. -/
def Lead.ofByte (byte : UInt8) : Lead :=
  let value := byte.toNat
  if value < 0x80 then .char (Char.ofNat value)
  else if value < 0xC2 then .invalid
  else if value < 0xE0 then .sequence { missing := 1, seen := 1, bits := value - 0xC0 }
  else if value < 0xF0 then
    .sequence
      { missing := 2, seen := 1, bits := value - 0xE0
        low := if value = 0xE0 then 0xA0 else 0x80
        high := if value = 0xED then 0x9F else 0xBF }
  else if value < 0xF5 then
    .sequence
      { missing := 3, seen := 1, bits := value - 0xF0
        low := if value = 0xF0 then 0x90 else 0x80
        high := if value = 0xF4 then 0x8F else 0xBF }
  else .invalid

/-- Reads characters to the end of the input. `index` is where the sequence in progress began, or
where the next one begins. -/
def decodeFrom (index : Nat) : Option Open → Bytes → Except Fault (List Char)
  | none, [] => .ok []
  | some _, [] => .error (.incomplete index)
  | none, byte :: rest =>
    match Lead.ofByte byte with
    | .char char => return char :: (← decodeFrom (index + 1) none rest)
    | .sequence opened => decodeFrom index (some opened) rest
    | .invalid => .error (.malformed 1 index)
  | some opened, byte :: rest =>
    if opened.low ≤ byte.toNat ∧ byte.toNat ≤ opened.high then
      let bits := opened.bits * 64 + (byte.toNat - 0x80)
      match opened.missing with
      | 0 | 1 => return Char.ofNat bits :: (← decodeFrom (index + opened.seen + 1) none rest)
      | missing + 2 =>
        decodeFrom index (some { missing := missing + 1, seen := opened.seen + 1, bits := bits }) rest
    else .error (.malformed opened.seen index)

/-- Reads bytes as text. -/
def decode (bytes : Bytes) : Except Fault String :=
  return String.ofList (← decodeFrom 0 none bytes)

end Switchboard.Utf8
