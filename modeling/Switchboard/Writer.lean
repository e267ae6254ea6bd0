import Switchboard.Codec.Error

/-!
# Writing into a buffer of fixed size

A `Writer` is a buffer that is written from its beginning on: the bytes written so far, and behind
them the ones that still are what they were before. `put` overwrites the first of the latter; it
never changes the length of the buffer, and a `put` that does not fit fails and changes nothing.
-/

namespace Switchboard

/-- The bytes written into a buffer, and its bytes from the position of the next one on. -/
structure Writer where
  written : Array UInt8
  untouched : Bytes

/-- An action on a writer. -/
abbrev WriteM := EStateM CodecError Writer

namespace Writer

/-- Writes from the beginning of a buffer. -/
def ofBytes (buffer : Bytes) : Writer := ⟨#[], buffer⟩

/-- Writes into `size` zero bytes. -/
def ofSize (size : Nat) : Writer := ofBytes (List.replicate size 0)

/-- The largest number of bytes that one allocation can have. -/
def capacity : Nat := Nat.pow 2 63 - 1

/-- Allocates `size` zero bytes to write into. Beyond the capacity there is no such buffer, and the
program stops instead. -/
def allocate? (size : Nat) : Option Writer :=
  if size ≤ capacity then some (ofSize size) else none

/-- The whole buffer. -/
def buffer (writer : Writer) : Bytes := writer.written.toList ++ writer.untouched

/-- The position of the next byte to write. -/
def position (writer : Writer) : Nat := writer.written.size

/-- The room from the position to the end of the buffer. -/
def remaining (writer : Writer) : Nat := writer.untouched.length

/-- The writer behind `bytes`, in a buffer that has the room for them. -/
def append (writer : Writer) (bytes : Bytes) : Writer :=
  ⟨writer.written ++ bytes, writer.untouched.drop bytes.length⟩

/-- Writes `bytes` at the position and moves behind them. -/
def put (bytes : Bytes) : WriteM Unit := fun writer =>
  if bytes.length ≤ writer.remaining then .ok () (writer.append bytes)
  else .error (.bufferOverrun bytes.length writer.remaining) writer

/-- Writes one byte. -/
def putByte (byte : UInt8) : WriteM Unit := put [byte]

theorem length_buffer (writer : Writer) :
    writer.buffer.length = writer.position + writer.remaining := by
  simp [buffer, position, remaining]

theorem take_position (writer : Writer) :
    writer.buffer.take writer.position = writer.written.toList :=
  List.take_left' Array.length_toList

theorem drop_position (writer : Writer) :
    writer.buffer.drop writer.position = writer.untouched :=
  List.drop_left' Array.length_toList

theorem position_append (writer : Writer) (bytes : Bytes) :
    (writer.append bytes).position = writer.position + bytes.length := by
  simp [append, position, ← Array.length_toList]

theorem remaining_append (writer : Writer) (bytes : Bytes) :
    (writer.append bytes).remaining = writer.remaining - bytes.length := by
  simp [append, remaining]

theorem buffer_append (writer : Writer) (bytes : Bytes) :
    (writer.append bytes).buffer =
      writer.written.toList ++ bytes ++ writer.untouched.drop bytes.length := by
  simp [append, buffer]

theorem put_of_le {writer : Writer} {bytes : Bytes} (h : bytes.length ≤ writer.remaining) :
    put bytes writer = .ok () (writer.append bytes) := by
  simp [put, h]

theorem put_of_lt {writer : Writer} {bytes : Bytes} (h : writer.remaining < bytes.length) :
    put bytes writer = .error (.bufferOverrun bytes.length writer.remaining) writer := by
  simp [put, Nat.not_le_of_lt h]

end Writer

end Switchboard
