import Switchboard.Text.Hex
import Switchboard.Text.Utf8
import Switchboard.Value

/-!
# What can go wrong when a value is measured, written or read

`CodecError` lists the causes, and `CodecError.message` gives each its wording.
-/

namespace Switchboard

/-- Why bytes, or a value about to become bytes, are not valid. The last case is the reason that a
codec of the host gives. -/
inductive Malformed where
  | boolByte (byte : UInt8)
  | lengthOverflow (length : Nat)
  | text (fault : Utf8.Fault)
  | custom (reason : String)
  deriving DecidableEq, Repr

/-- The text of an invalid encoding in messages. -/
def Malformed.message : Malformed → String
  | boolByte byte => "bool byte 0x" ++ Hex.ofByte byte
  | lengthOverflow length => s!"length {length} does not fit in u32"
  | text fault => fault.message
  | custom reason => reason

/-- Why the compact format refuses input or a value. -/
inductive CompactFault where
  | unterminatedVarint
  | invalidText
  | unwritable
  | unreadable
  deriving DecidableEq, Repr

/-- The text of a fault of the compact format in messages. -/
def CompactFault.message : CompactFault → String
  | unterminatedVarint =>
    "Found a varint that didn't terminate. Is the usize too big for this platform?"
  | invalidText => "Tried to parse invalid utf-8"
  | unwritable => "Serde Serialization Error"
  | unreadable => "Serde Deserialization Error"

/-- Why a codec failed. -/
inductive CodecError where
  | bufferUnderrun (needed remaining : Nat)
  | bufferOverrun (needed available : Nat)
  | typeMismatch (expected : ValueType)
  | sizeMismatch (declared written : Nat)
  | invalid (reason : Malformed)
  | compact (fault : CompactFault)
  deriving DecidableEq, Repr

/-- The text of a codec's failure. -/
def CodecError.message : CodecError → String
  | bufferUnderrun needed remaining =>
    s!"buffer underrun: needed {needed} bytes, {remaining} remaining"
  | bufferOverrun needed available =>
    s!"buffer overrun: writing {needed} bytes, {available} available"
  | typeMismatch expected => "value type mismatch: codec expects `" ++ expected.name ++ "`"
  | sizeMismatch declared written => s!"codec declared {declared} bytes but wrote {written}"
  | invalid reason => "invalid encoded value: " ++ reason.message
  | compact fault => "postcard: " ++ fault.message

/-- Whether input ended too early. -/
def CodecError.isUnderrun : CodecError → Bool
  | bufferUnderrun _ _ => true
  | _ => false

end Switchboard
