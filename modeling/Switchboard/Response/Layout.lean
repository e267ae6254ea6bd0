import Switchboard.Codec.Basic
import Switchboard.Response.Error

/-!
# The layout of a response

A response holds the values of the `ref` and `out` parameters in the order of declaration, and then
the result of the method. `ResponseLayout.encode` measures all of them first, and then writes them
one behind the other into a buffer of the total size. A codec that does not write as many bytes as
it announced is a `sizeMismatch`. `ResponseLayout.encode?` also takes into account that there is no
buffer of more than `Writer.capacity` bytes, whatever the codecs announce.
-/

namespace Switchboard

/-- A result that the caller receives: its type and the codec of that type. -/
structure ResultCodec where
  type : TypeExpr
  codec : ValueCodec

/-- The codecs of the parameters that a response holds, and the result if there is one. -/
structure ResponseLayout where
  parameters : List ValueCodec
  result : Option ResultCodec

/-- A value of a response with the codec that writes it. -/
structure Field where
  codec : ValueCodec
  value : Value

namespace Field

/-- The sizes of fields, in order. -/
def sizes : List Field → Except CodecError (List Nat)
  | [] => .ok []
  | field :: fields => do
      let size ← field.codec.sizeOf field.value
      let rest ← sizes fields
      pure (size :: rest)

/-- Writes a field, which must take the number of bytes that it announced. -/
def write (field : Field) (declared : Nat) : WriteM Unit := do
  let start := (← get).position
  field.codec.encode field.value
  let written := (← get).position - start
  if written ≠ declared then throw (.sizeMismatch declared written)

/-- Writes fields one behind the other. -/
def writeAll : List Field → List Nat → WriteM Unit
  | field :: fields, declared :: rest => do
      field.write declared
      writeAll fields rest
  | _, _ => pure ()

/-- Fills a buffer with fields. -/
def fill (fields : List Field) (declared : List Nat) (writer : Writer) : Except CodecError Bytes :=
  match (writeAll fields declared).run writer with
  | .ok _ writer => pure writer.buffer
  | .error error _ => throw error

/-- The bytes of fields, one behind the other, in a buffer of the size that they announce, which is
taken for granted. -/
def encodeAll (fields : List Field) : Except CodecError Bytes := do
  let declared ← sizes fields
  fill fields declared (.ofSize (declared.foldr (· + ·) 0))

/-- The same, unless the buffer cannot be allocated. Then the program stops before it has written
anything. -/
def encodeAll? (fields : List Field) : Option (Except CodecError Bytes) :=
  match sizes fields with
  | .ok declared => (Writer.allocate? (declared.foldr (· + ·) 0)).map (fill fields declared)
  | .error error => some (.error error)

end Field

namespace ResponseLayout

/-- The fields of a response. A result that the layout calls for must be there; one that it does not
call for is left out. -/
def fields (layout : ResponseLayout) (parameters : List Value) (result : Option Value) :
    Except InvokeError (List Field) :=
  let fields := List.zipWith Field.mk layout.parameters parameters
  match layout.result, result with
  | none, _ => .ok fields
  | some expected, some value => .ok (fields ++ [⟨expected.codec, value⟩])
  | some expected, none => .error (.returnShape expected.type)

/-- The bytes of a response, with the buffer for them taken for granted. -/
def encode (layout : ResponseLayout) (parameters : List Value) (result : Option Value) :
    Except InvokeError Bytes := do
  let fields ← layout.fields parameters result
  (Field.encodeAll fields).mapError .codec

/-- The bytes of a response, unless the buffer for them cannot be allocated. -/
def encode? (layout : ResponseLayout) (parameters : List Value) (result : Option Value) :
    Option (Except InvokeError Bytes) :=
  match layout.fields parameters result with
  | .ok fields => (Field.encodeAll? fields).map (·.mapError .codec)
  | .error error => some (.error error)

end ResponseLayout

end Switchboard
