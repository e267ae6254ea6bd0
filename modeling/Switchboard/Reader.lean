import Switchboard.Codec.Error

/-!
# Reading from a buffer

A `Reader` is the part of a buffer that was not read yet, together with its position in the buffer.
`ReadM` is an action that moves a reader forward or fails, and on failure the reader it leaves
behind can still be seen. `take` hands out the next bytes; a `take` that asks for too much fails and
does not move.
-/

namespace Switchboard

/-- The bytes of a buffer that are not yet read, and the position of the first of them. -/
structure Reader where
  position : Nat
  rest : Bytes

/-- An action on a reader. -/
abbrev ReadM := EStateM CodecError Reader

namespace Reader

/-- Reads from the beginning of a buffer. -/
def ofBytes (data : Bytes) : Reader := ⟨0, data⟩

/-- Reads from `offset` on. Beyond the end there is not even an empty tail to read. -/
def ofOffset (data : Bytes) (offset : Nat) : Except CodecError Reader :=
  if offset ≤ data.length then .ok ⟨offset, data.drop offset⟩
  else .error (.bufferUnderrun offset data.length)

/-- The number of bytes not yet read. -/
def remaining (reader : Reader) : Nat := reader.rest.length

/-- Passes over the next `count` bytes of a reader that has as many. -/
def forward (reader : Reader) (count : Nat) : Reader :=
  ⟨reader.position + count, reader.rest.drop count⟩

/-- Reads the next `count` bytes. -/
def take (count : Nat) : ReadM Bytes := fun reader =>
  if count ≤ reader.remaining then .ok (reader.rest.take count) (reader.forward count)
  else .error (.bufferUnderrun count reader.remaining) reader

/-- Passes over the next `count` bytes. -/
def advance (count : Nat) : ReadM Unit := do
  discard (take count)

theorem take_of_le {reader : Reader} {count : Nat} (h : count ≤ reader.remaining) :
    take count reader = .ok (reader.rest.take count) (reader.forward count) := by
  simp [take, h]

theorem take_of_lt {reader : Reader} {count : Nat} (h : reader.remaining < count) :
    take count reader = .error (.bufferUnderrun count reader.remaining) reader := by
  simp [take, Nat.not_le_of_lt h]

theorem advance_of_le {reader : Reader} {count : Nat} (h : count ≤ reader.remaining) :
    advance count reader = .ok () (reader.forward count) := by
  show EStateM.map (Function.const Bytes ()) (take count) reader = _
  simp [EStateM.map, take_of_le h]

theorem advance_of_lt {reader : Reader} {count : Nat} (h : reader.remaining < count) :
    advance count reader = .error (.bufferUnderrun count reader.remaining) reader := by
  show EStateM.map (Function.const Bytes ()) (take count) reader = _
  simp [EStateM.map, take_of_lt h]

theorem ofOffset_eq_ok_iff {data : Bytes} {offset : Nat} {reader : Reader} :
    ofOffset data offset = .ok reader ↔
      offset ≤ data.length ∧ reader = ⟨offset, data.drop offset⟩ := by
  unfold ofOffset
  by_cases h : offset ≤ data.length
  · simp [h, eq_comm]
  · simp [h]

end Reader

end Switchboard
