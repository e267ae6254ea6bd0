import Switchboard.Reader
import Switchboard.Writer
import Switchboard.Text.Quoted

/-!
# Codecs

A `Codec α` measures, writes and reads the values of `α`. A `ValueCodec` does the same for untyped
values: `Codec.erase` makes one out of a typed codec, and it is there that the type of a value is
checked, so that a value of another type is a `typeMismatch` before anything else happens.
-/

namespace Switchboard

/-- A `Codec α` gives the encoded size of an `α`, writes one and reads one. -/
structure Codec (α : Type) where
  sizeOf : α → Except CodecError Nat
  encode : α → WriteM Unit
  decode : ReadM α

/-- A codec for untyped values, all of which should have one type. -/
structure ValueCodec where
  valueType : ValueType
  sizeOf : Value → Except CodecError Nat
  encode : Value → WriteM Unit
  decode : ReadM Value

/-- The text of a codec, which shows the type of its values. -/
def ValueCodec.inspect (codec : ValueCodec) : String :=
  "DynCodec \x7b value: " ++ Quoted.quote codec.valueType.name ++ " \x7d"

namespace Codec

variable {α : Type}

/-- Finds the typed value inside an untyped one. -/
def expect (embedding : Embedding α) (value : Value) : Except CodecError α :=
  match embedding.unwrap? value with
  | some a => .ok a
  | none => .error (.typeMismatch embedding.type)

/-- The codec for untyped values that `codec` gives when its values are embedded. -/
def erase (embedding : Embedding α) (codec : Codec α) : ValueCodec where
  valueType := embedding.type
  sizeOf value := do codec.sizeOf (← expect embedding value)
  encode value := do codec.encode (← MonadExcept.ofExcept (expect embedding value))
  decode := return embedding.wrap (← codec.decode)

@[simp]
theorem expect_wrap (embedding : Embedding α) (a : α) :
    expect embedding (embedding.wrap a) = .ok a := by
  simp [expect]

theorem erase_sizeOf_wrap (embedding : Embedding α) (codec : Codec α) (a : α) :
    (codec.erase embedding).sizeOf (embedding.wrap a) = codec.sizeOf a := by
  simp only [erase, expect_wrap]
  rfl

theorem erase_encode_wrap (embedding : Embedding α) (codec : Codec α) (a : α) :
    (codec.erase embedding).encode (embedding.wrap a) = codec.encode a := by
  simp only [erase, expect_wrap]
  rfl

end Codec

end Switchboard
