import Switchboard.Codec.Basic

/-!
# Codecs of products

The value without content takes no bytes, and a pair is written one component behind the other.
-/

namespace Switchboard.Codec

/-- The codec of the value without content, which takes no bytes. -/
def unit : Codec Unit where
  sizeOf _ := .ok 0
  encode _ := pure ()
  decode := pure ()

/-- The codec of pairs, one component behind the other. -/
def pair (first second : ValueCodec) : Codec (Value × Value) where
  sizeOf values := return (← first.sizeOf values.1) + (← second.sizeOf values.2)
  encode values := do
    first.encode values.1
    second.encode values.2
  decode := return (← first.decode, ← second.decode)

end Switchboard.Codec
