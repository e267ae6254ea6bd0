import Switchboard.Codec.Basic

/-!
# The compact format

Numbers take as many bytes as they need: seven bits a byte, lowest first, with the high bit set on
all bytes but the last. A text is its length in bytes followed by its UTF-8. A `Format` writes and
reads whole values in this format, and `Format.codec` is the codec it gives: a value is written in
one piece, and a value that cannot be read leaves the reader where it was.
-/

namespace Switchboard.Compact

/-- Why a value cannot be read: the input ends too early, or it is no value. -/
inductive ReadError where
  | truncated
  | malformed (fault : CompactFault)
  deriving DecidableEq, Repr

/-- A `Format α` writes an `α` as bytes, and reads one from the beginning of the input together with
the input left over. -/
structure Format (α : Type) where
  write : α → Except CompactFault Bytes
  read : Bytes → Except ReadError (α × Bytes)

/-- Writes a number below `128 ^ limit` in at most `limit` bytes. -/
def writeVarint : (limit n : Nat) → Bytes
  | 0, _ => []
  | limit + 1, n =>
    if n < 128 then [UInt8.ofNat n]
    else UInt8.ofNat (128 + n % 128) :: writeVarint limit (n / 128)

/-- Reads a number in at most `more + 1` bytes, of which the last possible one is at most `top`. -/
def readVarint (top : Nat) : (more : Nat) → Bytes → Except ReadError (Nat × Bytes)
  | _, [] => .error .truncated
  | 0, byte :: rest =>
    if byte.toNat ≤ top then .ok (byte.toNat, rest)
    else .error (.malformed .unterminatedVarint)
  | more + 1, byte :: rest =>
    if byte.toNat < 128 then .ok (byte.toNat, rest)
    else do
      let (high, rest) ← readVarint top more rest
      return (byte.toNat - 128 + 128 * high, rest)

/-- The format of unsigned 32-bit numbers. -/
def u32 : Format UInt32 where
  write n := .ok (writeVarint 5 n.toNat)
  read input := do
    let (n, rest) ← readVarint 0x0F 4 input
    return (UInt32.ofNat n, rest)

/-- The format of texts. -/
def text : Format String where
  write text :=
    let bytes := Utf8.encode text
    .ok (writeVarint 10 bytes.length ++ bytes)
  read input := do
    let (length, rest) ← readVarint 0x01 9 input
    if rest.length < length then throw .truncated
    match Utf8.decode (rest.take length) with
    | .ok text => return (text, rest.drop length)
    | .error _ => throw (.malformed .invalidText)

/-- The format of a type whose values can be neither written nor read. -/
def refusing (α : Type) : Format α where
  write _ := .error .unwritable
  read _ := .error (.malformed .unreadable)

/-- The codec that a format gives. -/
def Format.codec {α : Type} (format : Format α) : Codec α where
  sizeOf a :=
    match format.write a with
    | .ok bytes => .ok bytes.length
    | .error fault => .error (.compact fault)
  encode a :=
    match format.write a with
    | .ok bytes => Writer.put bytes
    | .error fault => throw (.compact fault)
  decode := do
    let input := (← get).rest
    match format.read input with
    | .ok (a, tail) =>
      Reader.advance (input.length - tail.length)
      return a
    | .error .truncated => throw (.bufferUnderrun (input.length + 1) input.length)
    | .error (.malformed fault) => throw (.compact fault)

/-- A message with a number and a name. -/
structure Message where
  id : UInt32
  name : String
  deriving DecidableEq, Repr

namespace Message

/-- The format of messages: the number, then the name. -/
def format : Format Message where
  write message := return (← u32.write message.id) ++ (← text.write message.name)
  read input := do
    let (id, rest) ← u32.read input
    let (name, rest) ← text.read rest
    return (⟨id, name⟩, rest)

/-- Messages as values of the record type `typeName`. -/
def embedding (typeName : String) : Embedding Message where
  type := .record typeName
  wrap message := .record typeName [.u32 message.id, .string message.name]
  unwrap?
    | .record found [.u32 id, .string name] => if found = typeName then some ⟨id, name⟩ else none
    | _ => none
  type_wrap _ := rfl
  unwrap?_eq_some_iff value message := by
    obtain ⟨id, name⟩ := message
    split <;> simp_all

end Message

end Switchboard.Compact
