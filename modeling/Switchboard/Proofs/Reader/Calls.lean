import Switchboard.Proofs.Action
import Switchboard.Reader

/-!
# A reader under any calls

A `Record` is one call on a reader, with what came of it and the positions around it, and
`Reader.run` makes the records of any calls, going on after those that fail. An `IndexedReader`
keeps a position in the whole buffer instead of the bytes that are left, as a machine does, and has
no answer where a sum or an index is out of range. The main result, `Reader.run_tracks`, says what
holds of the records and of the reader behind them, and that an indexed reader comes to the same.
-/

namespace Switchboard

/-- The bytes from the position `first` up to the position `last`. -/
def Bytes.slice (data : Bytes) (first last : Nat) : Bytes := (data.drop first).take (last - first)

theorem Bytes.slice_append (data : Bytes) {first middle last : Nat} (hfirst : first ≤ middle)
    (hlast : middle ≤ last) :
    data.slice first middle ++ data.slice middle last = data.slice first last := by
  have hwhole : last - first = (middle - first) + (last - middle) := by omega
  have hdrop : data.drop middle = (data.drop first).drop (middle - first) := by
    rw [List.drop_drop, Nat.add_sub_cancel' hfirst]
  rw [slice, slice, slice, hwhole, List.take_add, hdrop]

namespace Reader

/-- A call on a reader. An array is taken like other bytes, as many as it is wide. -/
inductive Call where
  | take (count : Nat)
  | takeArray (width : Nat)
  | advance (count : Nat)
  | rest
  deriving DecidableEq, Repr

/-- What a call gives when it succeeds. -/
inductive Answer where
  | handed (bytes : Bytes)
  | moved
  | shown (bytes : Bytes)
  deriving DecidableEq, Repr

namespace Call

/-- The number of bytes that a call moves over. -/
def count : Call → Nat
  | take count | takeArray count | advance count => count
  | rest => 0

/-- What a call gives when `unread` are the bytes in front of it, and enough of them. -/
def answer (unread : Bytes) : Call → Answer
  | take count | takeArray count => .handed (unread.take count)
  | advance _ => .moved
  | rest => .shown unread

/-- What a call does. -/
def perform : Call → ReadM Answer
  | take count | takeArray count => return .handed (← Reader.take count)
  | advance count => do
    Reader.advance count
    return .moved
  | rest => return .shown (← get).rest

theorem perform_of_le {call : Call} {reader : Reader} (h : call.count ≤ reader.remaining) :
    call.perform reader = .ok (call.answer reader.rest) (reader.forward call.count) := by
  cases call with
  | take count => exact Action.bind_of_ok (take_of_le h)
  | takeArray count => exact Action.bind_of_ok (take_of_le h)
  | advance count => exact Action.bind_of_ok (advance_of_le h)
  | rest => rfl

theorem perform_of_lt {call : Call} {reader : Reader} (h : reader.remaining < call.count) :
    call.perform reader = .error (.bufferUnderrun call.count reader.remaining) reader := by
  cases call with
  | take count => exact Action.bind_of_error (take_of_lt h)
  | takeArray count => exact Action.bind_of_error (take_of_lt h)
  | advance count => exact Action.bind_of_error (advance_of_lt h)
  | rest => exact absurd h (Nat.not_lt_zero _)

end Call

/-- A call together with what came of it, and the positions of the reader before and after it. -/
structure Record where
  call : Call
  outcome : Except CodecError Answer
  before : Nat
  after : Nat

/-- The bytes of `data` that a call handed out, or moved over without handing them out. -/
def Record.passed (data : Bytes) (record : Record) : Bytes :=
  match record.outcome with
  | .ok (.handed bytes) => bytes
  | .ok .moved => data.slice record.before record.after
  | .ok (.shown _) | .error _ => []

namespace Call

/-- The record of a call on a reader. -/
def record (call : Call) (reader : Reader) : Record :=
  ⟨call, Action.outcome (call.perform reader), reader.position,
    (Action.left (call.perform reader)).position⟩

/-- The reader that a call leaves behind, whether or not it succeeds. -/
def next (call : Call) (reader : Reader) : Reader := Action.left (call.perform reader)

end Call

/-- The records of calls, and the reader that they leave behind. -/
structure Session where
  records : List Record
  reader : Reader

/-- Calls one after the other, going on after those that fail. -/
def run : List Call → Reader → Session
  | [], reader => ⟨[], reader⟩
  | call :: calls, reader =>
    let session := run calls (call.next reader)
    ⟨call.record reader :: session.records, session.reader⟩

/-- `record.Obeys data` says that a call on a reader of `data` moved inside the buffer and not back,
that it failed exactly when it asked for more than there was, and what came of it in both cases. -/
structure Record.Obeys (record : Record) (data : Bytes) : Prop where
  before_le : record.before ≤ record.after
  after_le : record.after ≤ data.length
  fails_iff : (∃ error, record.outcome = .error error) ↔
    data.length - record.before < record.call.count
  failed {error : CodecError} : record.outcome = .error error →
    error = .bufferUnderrun record.call.count (data.length - record.before) ∧
      record.after = record.before
  succeeded {answer : Answer} : record.outcome = .ok answer →
    answer = record.call.answer (data.drop record.before) ∧
      record.after = record.before + record.call.count

/-- `reader.Reads data` says that the reader is at a position of `data`, with what is behind it left
to be read. -/
structure Reads (reader : Reader) (data : Bytes) : Prop where
  position_le : reader.position ≤ data.length
  rest_eq : reader.rest = data.drop reader.position

namespace Reads

variable {reader : Reader} {data : Bytes}

theorem remaining_eq (h : reader.Reads data) :
    reader.remaining = data.length - reader.position := by
  rw [remaining, h.rest_eq, List.length_drop]

theorem forward {count : Nat} (h : reader.Reads data) (hcount : count ≤ reader.remaining) :
    (reader.forward count).Reads data := by
  have hposition := h.position_le
  rw [h.remaining_eq] at hcount
  refine ⟨?_, ?_⟩
  · show reader.position + count ≤ data.length
    omega
  · show reader.rest.drop count = data.drop (reader.position + count)
    rw [h.rest_eq, List.drop_drop]

end Reads

section Step

variable {reader : Reader} {data : Bytes} {call : Call}

theorem Call.next_of_le (h : call.count ≤ reader.remaining) :
    call.next reader = reader.forward call.count := by
  rw [next, perform_of_le h]
  rfl

theorem Call.next_of_lt (h : reader.remaining < call.count) : call.next reader = reader := by
  rw [next, perform_of_lt h]
  rfl

theorem Call.record_of_le (h : call.count ≤ reader.remaining) :
    call.record reader = ⟨call, .ok (call.answer reader.rest), reader.position,
      reader.position + call.count⟩ := by
  rw [record, perform_of_le h]
  rfl

theorem Call.record_of_lt (h : reader.remaining < call.count) :
    call.record reader = ⟨call, .error (.bufferUnderrun call.count reader.remaining),
      reader.position, reader.position⟩ := by
  rw [record, perform_of_lt h]
  rfl

/-- A call leaves a reader of the same data behind. -/
theorem Reads.next (h : reader.Reads data) (call : Call) : (call.next reader).Reads data := by
  rcases Nat.lt_or_ge reader.remaining call.count with hshort | henough
  · rwa [Call.next_of_lt hshort]
  · rw [Call.next_of_le henough]
    exact h.forward henough

theorem Reads.obeys (h : reader.Reads data) (call : Call) : (call.record reader).Obeys data := by
  have hposition := h.position_le
  have hremaining := h.remaining_eq
  rcases Nat.lt_or_ge reader.remaining call.count with hshort | henough
  · rw [Call.record_of_lt hshort, hremaining]
    rw [hremaining] at hshort
    refine ⟨Nat.le_refl _, hposition, iff_of_true ⟨_, rfl⟩ hshort, ?_, nofun⟩
    rintro _ ⟨⟩
    exact ⟨rfl, rfl⟩
  · rw [Call.record_of_le henough, h.rest_eq]
    rw [hremaining] at henough
    refine ⟨Nat.le_add_right _ _, by dsimp only; omega, iff_of_false nofun (by dsimp only; omega),
      nofun, ?_⟩
    rintro _ ⟨⟩
    exact ⟨rfl, rfl⟩

/-- The bytes that a call passes are those between the positions before and after it. -/
theorem Reads.passed_eq (h : reader.Reads data) (call : Call) :
    (call.record reader).passed data =
      data.slice reader.position (call.next reader).position := by
  rcases Nat.lt_or_ge reader.remaining call.count with hshort | henough
  · rw [Call.record_of_lt hshort, Call.next_of_lt hshort, Bytes.slice, Nat.sub_self]
    rfl
  · have hlength : reader.position + call.count - reader.position = call.count :=
      Nat.add_sub_cancel_left _ _
    rw [Call.record_of_le henough, Call.next_of_le henough, h.rest_eq]
    cases call with
    | advance count => rfl
    | _ => exact (congrArg (List.take · _) hlength).symm

end Step

/-- `session.Tracks data start calls` says what is true of a session of calls on a reader of `data`
that began at `start`. -/
structure Session.Tracks (session : Session) (data : Bytes) (start : Nat) (calls : List Call) :
    Prop where
  /-- Every call has its record. -/
  calls_eq : session.records.map Record.call = calls
  /-- A call fails exactly when it asks for more than there is, and moves only if it succeeds. -/
  obeys : ∀ record ∈ session.records, record.Obeys data
  /-- A call begins at the position where the one before it ended. -/
  chained : start :: session.records.map Record.after =
    session.records.map Record.before ++ [session.reader.position]
  start_le : start ≤ session.reader.position
  position_le : session.reader.position ≤ data.length
  remaining_eq : session.reader.position + session.reader.remaining = data.length
  /-- What is left to be read is what is behind the position. -/
  rest_eq : session.reader.rest = data.drop session.reader.position
  /-- What was handed out or moved over is what is between the start and the position. -/
  passed_eq : session.records.flatMap (Record.passed data) =
    data.slice start session.reader.position

/-- What a call keeps and records adds up over any calls: by induction on them, with the position
of the reader in the place of the start. -/
theorem Reads.tracks {reader : Reader} {data : Bytes} (h : reader.Reads data) (calls : List Call) :
    (run calls reader).Tracks data reader.position calls := by
  induction calls generalizing reader with
  | nil =>
      have hposition := h.position_le
      have hremaining : reader.remaining = data.length - reader.position := h.remaining_eq
      refine ⟨rfl, nofun, rfl, Nat.le_refl _, hposition, ?_, h.rest_eq, ?_⟩
      · show reader.position + reader.remaining = data.length
        omega
      · show [] = data.slice reader.position reader.position
        rw [Bytes.slice, Nat.sub_self]
        rfl
  | cons call calls ih =>
      have hrest := ih (h.next call)
      have hobeys := h.obeys call
      have hforward : reader.position ≤ (call.next reader).position := hobeys.before_le
      refine ⟨?_, ?_, ?_, hforward.trans hrest.start_le, hrest.position_le, hrest.remaining_eq,
        hrest.rest_eq, ?_⟩
      · exact congrArg (call :: ·) hrest.calls_eq
      · exact List.forall_mem_cons.2 ⟨hobeys, hrest.obeys⟩
      · exact congrArg (reader.position :: ·) hrest.chained
      · show (call.record reader :: (run calls (call.next reader)).records).flatMap
          (Record.passed data) = _
        rw [List.flatMap_cons, hrest.passed_eq, h.passed_eq call]
        exact Bytes.slice_append data hforward hrest.start_le

end Reader

/-- A reader that keeps its position in the whole buffer. -/
structure IndexedReader where
  data : Bytes
  position : Nat

namespace IndexedReader

open Reader (Call Answer)

/-- A sum, unless it is greater than the greatest number that there is. -/
def sum? (largest a b : Nat) : Option Nat := if a + b ≤ largest then some (a + b) else none

/-- A difference, unless it is below zero. -/
def difference? (a b : Nat) : Option Nat := if b ≤ a then some (a - b) else none

/-- The bytes between two positions, unless one of them is out of range. -/
def slice? (data : Bytes) (first last : Nat) : Option Bytes :=
  if first ≤ last ∧ last ≤ data.length then some (data.slice first last) else none

/-- Takes the next `count` bytes with numbers of which the greatest is `largest`. -/
def take? (largest count : Nat) (reader : IndexedReader) :
    Option (Except CodecError Bytes × IndexedReader) := do
  let remaining ← difference? reader.data.length reader.position
  if remaining < count then
    return (.error (.bufferUnderrun count remaining), reader)
  let stop ← sum? largest reader.position count
  let bytes ← slice? reader.data reader.position stop
  return (.ok bytes, ⟨reader.data, stop⟩)

/-- Copies bytes into an array, unless it is not as wide. -/
def copy? (width : Nat) (bytes : Bytes) : Option Bytes :=
  if bytes.length = width then some bytes else none

/-- What a call does. There is no result when something is out of range. -/
def perform? (largest : Nat) (reader : IndexedReader) :
    Call → Option (Except CodecError Answer × IndexedReader)
  | .take count => do
    let (taken, after) ← reader.take? largest count
    return (taken.map .handed, after)
  | .takeArray width => do
    match ← reader.take? largest width with
    | (.ok bytes, after) => return (.ok (.handed (← copy? width bytes)), after)
    | (.error error, after) => return (.error error, after)
  | .advance count => do
    let (taken, after) ← reader.take? largest count
    return (taken.map fun _ => .moved, after)
  | .rest => do
    let bytes ← slice? reader.data reader.position reader.data.length
    return (.ok (.shown bytes), reader)

/-- Calls one after the other, as long as nothing is out of range. -/
def run? (largest : Nat) : List Call → IndexedReader →
    Option (List (Except CodecError Answer) × IndexedReader)
  | [], reader => some ([], reader)
  | call :: calls, reader => do
    let (outcome, after) ← reader.perform? largest call
    let (outcomes, final) ← run? largest calls after
    return (outcome :: outcomes, final)

variable {largest : Nat} {reader : Reader} {data : Bytes}

theorem take?_of_le {count : Nat} (h : reader.Reads data) (hlargest : data.length ≤ largest)
    (hcount : count ≤ reader.remaining) :
    take? largest count ⟨data, reader.position⟩ =
      some (.ok (reader.rest.take count), ⟨data, reader.position + count⟩) := by
  have hposition := h.position_le
  rw [h.remaining_eq] at hcount
  have hslice : data.slice reader.position (reader.position + count) = reader.rest.take count := by
    rw [Bytes.slice, Nat.add_sub_cancel_left, h.rest_eq]
  have hsum : reader.position + count ≤ largest := by omega
  have hstop : reader.position + count ≤ data.length := by omega
  simp [take?, difference?, sum?, slice?, hposition, Nat.not_lt_of_le hcount, hsum, hstop, hslice]

theorem take?_of_lt {count : Nat} (h : reader.Reads data) (hcount : reader.remaining < count) :
    take? largest count ⟨data, reader.position⟩ =
      some (.error (.bufferUnderrun count reader.remaining), ⟨data, reader.position⟩) := by
  rw [h.remaining_eq] at hcount ⊢
  simp [take?, difference?, h.position_le, hcount]

/-- Nothing that a call does is out of range, if the length of the buffer is not. -/
theorem perform?_eq (h : reader.Reads data) (hlargest : data.length ≤ largest) (call : Call) :
    perform? largest ⟨data, reader.position⟩ call =
      some ((call.record reader).outcome, ⟨data, (call.next reader).position⟩) := by
  rcases Nat.lt_or_ge reader.remaining call.count with hshort | henough
  · rw [Call.record_of_lt hshort, Call.next_of_lt hshort]
    cases call with
    | rest => exact absurd hshort (Nat.not_lt_zero _)
    | take count | takeArray count | advance count =>
        have hcount : reader.remaining < count := hshort
        simp [perform?, take?_of_lt h hcount, Except.map, Call.count]
  · rw [Call.record_of_le henough, Call.next_of_le henough]
    cases call with
    | rest =>
        have hall : data.slice reader.position data.length = reader.rest := by
          rw [Bytes.slice, h.rest_eq, ← List.length_drop, List.take_length]
        simp only [perform?, slice?, h.position_le, Nat.le_refl, and_self, if_true, hall]
        rfl
    | takeArray width =>
        have hcount : width ≤ reader.remaining := henough
        have hwidth : copy? width (reader.rest.take width) = some (reader.rest.take width) :=
          if_pos (List.length_take_of_le hcount)
        simp only [perform?, take?_of_le h hlargest hcount, Option.bind_eq_bind, Option.bind_some,
          hwidth]
        rfl
    | take count | advance count =>
        have hcount : count ≤ reader.remaining := henough
        simp only [perform?, take?_of_le h hlargest hcount, Option.bind_eq_bind, Option.bind_some]
        rfl

theorem run?_eq (h : reader.Reads data) (hlargest : data.length ≤ largest) (calls : List Call) :
    run? largest calls ⟨data, reader.position⟩ =
      some ((Reader.run calls reader).records.map Reader.Record.outcome,
        ⟨data, (Reader.run calls reader).reader.position⟩) := by
  induction calls generalizing reader with
  | nil => rfl
  | cons call calls ih =>
      rw [run?, perform?_eq h hlargest call]
      simp only [Option.bind_eq_bind, Option.bind_some, ih (h.next call)]
      rfl

end IndexedReader

namespace Reader

/-- Calls on a reader that was put at a position of a buffer. A call fails exactly when it asks for
more than there is, and then the reader does not move. The position stays inside the buffer and
never goes back, what is left is what is behind it, and what was handed out or moved over is, in
order, all that is between the start and the position. An indexed reader comes to the same, and
nothing that it computes on the way is out of range if the length of the buffer is not. -/
theorem run_tracks {data : Bytes} {start : Nat} {reader : Reader}
    (h : ofOffset data start = .ok reader) (calls : List Call) :
    (run calls reader).Tracks data start calls ∧
    ∀ largest, data.length ≤ largest → IndexedReader.run? largest calls ⟨data, start⟩ =
      some ((run calls reader).records.map Record.outcome,
        ⟨data, (run calls reader).reader.position⟩) := by
  obtain ⟨hstart, rfl⟩ := ofOffset_eq_ok_iff.1 h
  have hreads : Reads ⟨start, data.drop start⟩ data := ⟨hstart, rfl⟩
  exact ⟨hreads.tracks calls, fun _ hlargest => IndexedReader.run?_eq hreads hlargest calls⟩

/-- Calls of every kind, two of which ask for too much. -/
def assortedCalls : List Call :=
  [.take 2, .takeArray 9, .advance 1, .rest, .take (2 ^ 64 - 1), .takeArray 1]

/-- Behind calls of every kind, the four bytes of five that were left at the start have been handed
out or moved over, and an indexed reader has computed nothing that does not fit into 64 bits. -/
theorem run_tracks_assorted :
    (run assortedCalls ⟨1, [2, 3, 4, 5]⟩).Tracks [1, 2, 3, 4, 5] 1 assortedCalls ∧
    (run assortedCalls ⟨1, [2, 3, 4, 5]⟩).reader.position = 5 ∧
    IndexedReader.run? (2 ^ 64 - 1) assortedCalls ⟨[1, 2, 3, 4, 5], 1⟩ =
      some ([.ok (.handed [2, 3]), .error (.bufferUnderrun 9 2), .ok .moved, .ok (.shown [5]),
        .error (.bufferUnderrun (2 ^ 64 - 1) 1), .ok (.handed [5])], ⟨[1, 2, 3, 4, 5], 5⟩) := by
  have hstart : ofOffset [1, 2, 3, 4, 5] 1 = .ok ⟨1, [2, 3, 4, 5]⟩ := rfl
  obtain ⟨htracks, hindexed⟩ := run_tracks hstart assortedCalls
  exact ⟨htracks, rfl, hindexed (2 ^ 64 - 1) (by decide)⟩

end Reader

end Switchboard
