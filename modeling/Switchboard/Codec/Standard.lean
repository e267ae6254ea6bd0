import Switchboard.Codec.Basic

/-!
# The standard codecs

Words are little-endian. Whatever varies in length carries its length in front, as a 32-bit word:
the number of bytes of a text or a string of bytes, the number of elements of a list. A truth value
is a byte, `0` or `1`, and nothing else is accepted for one.
-/

namespace Switchboard.Codec

/-- The codec that lays words out little-endian. -/
def word (α : Type) [Word α] : Codec α where
  sizeOf _ := .ok (Word.width α)
  encode a := Writer.put (Bytes.ofNat (Word.width α) (Word.toNat a))
  decode := return Word.ofNat (← Reader.take (Word.width α)).toNat

/-- The codec of truth values. -/
def bool : Codec Bool where
  sizeOf _ := .ok 1
  encode b := Writer.putByte (if b then 1 else 0)
  decode := do
    match (← (word UInt8).decode) with
    | 0 => return false
    | 1 => return true
    | byte => throw (.invalid (.boolByte byte))

/-- Writes a length as a 32-bit word, and refuses one that does not fit. -/
def encodeLength (length : Nat) : WriteM Unit :=
  if length < UInt32.size then (word UInt32).encode (UInt32.ofNat length)
  else throw (.invalid (.lengthOverflow length))

/-- Reads a length. -/
def decodeLength : ReadM Nat := return (← (word UInt32).decode).toNat

/-- The codec of strings of bytes. -/
def bytes : Codec Bytes where
  sizeOf bytes := .ok (4 + bytes.length)
  encode bytes := do
    encodeLength bytes.length
    Writer.put bytes
  decode := do Reader.take (← decodeLength)

/-- The codec of texts, as strings of bytes that must be UTF-8. -/
def string : Codec String where
  sizeOf text := bytes.sizeOf (Utf8.encode text)
  encode text := bytes.encode (Utf8.encode text)
  decode := do
    match Utf8.decode (← bytes.decode) with
    | .ok text => return text
    | .error fault => throw (.invalid (.text fault))

/-- The sum of the sizes of the elements of a list. -/
def sizeOfItems (element : ValueCodec) : List Value → Except CodecError Nat
  | [] => .ok 0
  | item :: items => return (← element.sizeOf item) + (← sizeOfItems element items)

/-- Writes the elements of a list one behind the other. -/
def encodeItems (element : ValueCodec) : List Value → WriteM Unit
  | [] => pure ()
  | item :: items => do
    element.encode item
    encodeItems element items

/-- Reads a given number of elements. -/
def decodeItems (element : ValueCodec) : Nat → ReadM (List Value)
  | 0 => pure []
  | count + 1 => return (← element.decode) :: (← decodeItems element count)

/-- The codec of lists whose elements all have the codec `element`. -/
def list (element : ValueCodec) : Codec (List Value) where
  sizeOf items := return 4 + (← sizeOfItems element items)
  encode items := do
    encodeLength items.length
    encodeItems element items
  decode := do decodeItems element (← decodeLength)

end Switchboard.Codec
