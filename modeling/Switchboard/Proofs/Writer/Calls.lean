import Switchboard.Proofs.Reader.Calls
import Switchboard.Writer

/-!
# A writer under any calls

An `IndexedWriter` is a writer as a machine has it: the whole buffer and a position in it. What it
`Holds` is what was put, one after the other, and behind it what the buffer held at first. A
`Record` is one call on a writer, with what came of it and the buffer and the position around it,
and `Writer.run` makes the records of any calls, going on after those that fail. The main result,
`Writer.run_fills`, says what the buffer holds before each of the calls and behind them, and that a
machine that stores byte by byte does the same, with no index out of range.
-/

namespace Switchboard

/-- A call on a writer. -/
inductive Writer.Call where
  | put (bytes : Bytes)
  | putByte (byte : UInt8)
  deriving DecidableEq, Repr

namespace Writer.Call

/-- The bytes that a call puts. -/
def bytes : Call → Bytes
  | put bytes => bytes
  | putByte byte => [byte]

/-- What a call does. -/
def perform : Call → WriteM Unit
  | put bytes => Writer.put bytes
  | putByte byte => Writer.putByte byte

theorem perform_eq_put (call : Call) : call.perform = Writer.put call.bytes := by
  cases call <;> rfl

end Writer.Call

/-- A writer that keeps its position in the whole buffer. -/
structure IndexedWriter where
  buffer : Bytes
  position : Nat
  deriving DecidableEq, Repr

namespace IndexedWriter

/-- The room from the position to the end of the buffer. -/
def remaining (writer : IndexedWriter) : Nat := writer.buffer.length - writer.position

/-- The writer behind `bytes`, which stand where the buffer had as many others. -/
def overwrite (writer : IndexedWriter) (bytes : Bytes) : IndexedWriter where
  buffer := writer.buffer.take writer.position ++ bytes ++
    writer.buffer.drop (writer.position + bytes.length)
  position := writer.position + bytes.length

/-- `writer.Holds original puts` says that the buffer, which held `original` at first, holds `puts`
one after the other up to the position, and behind it what it held there at first. -/
structure Holds (writer : IndexedWriter) (original : Bytes) (puts : List Bytes) : Prop where
  length_eq : writer.buffer.length = original.length
  position_eq : writer.position = (puts.map List.length).sum
  position_le : writer.position ≤ original.length
  buffer_eq : writer.buffer = puts.flatten ++ original.drop writer.position

theorem holds_nil (original : Bytes) : Holds ⟨original, 0⟩ original [] :=
  ⟨rfl, rfl, Nat.zero_le _, rfl⟩

theorem Holds.overwrite {writer : IndexedWriter} {original bytes : Bytes} {puts : List Bytes}
    (h : writer.Holds original puts) (hroom : bytes.length ≤ writer.remaining) :
    (writer.overwrite bytes).Holds original (puts ++ [bytes]) := by
  have hfits : writer.position + bytes.length ≤ original.length := by
    have hposition := h.position_le
    rw [remaining, h.length_eq] at hroom
    omega
  have hwritten : puts.flatten.length = writer.position := by
    rw [List.length_flatten, h.position_eq]
  have hfront : writer.buffer.take writer.position = puts.flatten := by
    rw [h.buffer_eq, List.take_left' hwritten]
  have hbehind : writer.buffer.drop (writer.position + bytes.length) =
      original.drop (writer.position + bytes.length) := by
    rw [h.buffer_eq, ← List.drop_drop, List.drop_left' hwritten, List.drop_drop]
  have hbuffer : (writer.overwrite bytes).buffer =
      (puts ++ [bytes]).flatten ++ original.drop (writer.position + bytes.length) := by
    rw [List.flatten_append, List.flatten_singleton, ← hfront, ← hbehind]
    rfl
  refine ⟨?_, ?_, hfits, hbuffer⟩
  · rw [hbuffer, List.flatten_append, List.flatten_singleton, List.length_append,
      List.length_append, hwritten, List.length_drop]
    omega
  · rw [List.map_append, List.sum_append, ← h.position_eq]
    rfl

section Machine

open IndexedReader (sum? difference?)

/-- Replaces the bytes of a buffer from an index on, one after the other. -/
def store (buffer : Bytes) (index : Nat) : Bytes → Bytes
  | [] => buffer
  | byte :: bytes => store (buffer.set index byte) (index + 1) bytes

/-- Stores bytes between two positions, unless one of them is out of range or there is not exactly
the room for them in between. -/
def fill? (buffer : Bytes) (first last : Nat) (bytes : Bytes) : Option Bytes :=
  if first ≤ last ∧ last ≤ buffer.length ∧ last - first = bytes.length then
    some (store buffer first bytes)
  else none

/-- Puts bytes at the position with numbers of which the greatest is `largest`. -/
def put? (largest : Nat) (bytes : Bytes) (writer : IndexedWriter) :
    Option (Except CodecError Unit × IndexedWriter) := do
  let available ← difference? writer.buffer.length writer.position
  if available < bytes.length then
    return (.error (.bufferOverrun bytes.length available), writer)
  let stop ← sum? largest writer.position bytes.length
  let buffer ← fill? writer.buffer writer.position stop bytes
  return (.ok (), ⟨buffer, stop⟩)

/-- What a call does. There is no result when something is out of range. -/
def perform? (largest : Nat) (writer : IndexedWriter) :
    Writer.Call → Option (Except CodecError Unit × IndexedWriter)
  | .put bytes => put? largest bytes writer
  | .putByte byte => put? largest [byte] writer

theorem perform?_eq_put? (largest : Nat) (writer : IndexedWriter) (call : Writer.Call) :
    writer.perform? largest call = put? largest call.bytes writer := by
  cases call <;> rfl

theorem store_eq {buffer bytes : Bytes} {index : Nat}
    (h : index + bytes.length ≤ buffer.length) :
    store buffer index bytes =
      buffer.take index ++ bytes ++ buffer.drop (index + bytes.length) := by
  induction bytes generalizing buffer index with
  | nil => simp [store]
  | cons byte bytes ih =>
      rw [List.length_cons] at h
      have hindex : index < buffer.length := by omega
      have hset : buffer.set index byte =
          (buffer.take index ++ [byte]) ++ buffer.drop (index + 1) := by
        rw [List.set_eq_take_append_cons_drop, if_pos hindex, List.append_assoc]
        rfl
      have hfront : (buffer.take index ++ [byte]).length = index + 1 := by
        rw [List.length_append, List.length_take_of_le hindex.le]
        rfl
      have hstop : index + (bytes.length + 1) = index + 1 + bytes.length := by omega
      -- The bytes before the next index end with the one just stored; those behind are as before.
      rw [store, ih (by rw [List.length_set]; omega), hset, List.take_left' hfront,
        ← List.drop_drop, List.drop_left' hfront, List.drop_drop, List.length_cons, hstop]
      simp only [List.append_assoc, List.singleton_append]

variable {writer : IndexedWriter} {largest : Nat} {bytes : Bytes}

theorem put?_of_le (hposition : writer.position ≤ writer.buffer.length)
    (hlargest : writer.buffer.length ≤ largest) (h : bytes.length ≤ writer.remaining) :
    put? largest bytes writer = some (.ok (), writer.overwrite bytes) := by
  have hroom : bytes.length ≤ writer.buffer.length - writer.position := h
  have hstop : writer.position + bytes.length ≤ writer.buffer.length := by omega
  have hsum : writer.position + bytes.length ≤ largest := hstop.trans hlargest
  simp [put?, difference?, sum?, fill?, hposition, Nat.not_lt_of_le hroom, hsum, hstop,
    store_eq hstop, overwrite]

theorem put?_of_lt (hposition : writer.position ≤ writer.buffer.length)
    (h : writer.remaining < bytes.length) :
    put? largest bytes writer =
      some (.error (.bufferOverrun bytes.length writer.remaining), writer) := by
  have hroom : writer.buffer.length - writer.position < bytes.length := h
  simp [put?, difference?, hposition, hroom, remaining]

end Machine

end IndexedWriter

namespace Writer

/-- The writer with its position in the whole buffer. -/
def indexed (writer : Writer) : IndexedWriter := ⟨writer.buffer, writer.position⟩

theorem remaining_indexed (writer : Writer) : writer.indexed.remaining = writer.remaining := by
  show writer.buffer.length - writer.position = writer.remaining
  rw [length_buffer, Nat.add_sub_cancel_left]

theorem indexed_append (writer : Writer) (bytes : Bytes) :
    (writer.append bytes).indexed = writer.indexed.overwrite bytes := by
  rw [indexed, buffer_append, position_append, ← take_position, ← drop_position, List.drop_drop]
  rfl

/-- A call together with what came of it, and the buffer and the position before and after it. -/
structure Record where
  call : Call
  outcome : Except CodecError Unit
  before : IndexedWriter
  after : IndexedWriter

namespace Record

/-- What a call added to the bytes that were put: all of its bytes, or nothing if it failed. -/
def accepted (record : Record) : List Bytes :=
  match record.outcome with
  | .ok _ => [record.call.bytes]
  | .error _ => []

/-- `record.Obeys` says that a call failed exactly when it had more bytes than there was room for,
that it then named both and changed neither the buffer nor the position, and that it otherwise put
its bytes at the position and changed no others. -/
structure Obeys (record : Record) : Prop where
  fails_iff : (∃ error, record.outcome = .error error) ↔
    record.before.remaining < record.call.bytes.length
  failed {error : CodecError} : record.outcome = .error error →
    error = .bufferOverrun record.call.bytes.length record.before.remaining ∧
      record.after = record.before
  succeeded : record.outcome = .ok () → record.after = record.before.overwrite record.call.bytes

/-- A machine does at a call what its record says, and nothing is out of range on the way. -/
theorem Obeys.perform?_eq {record : Record} {original : Bytes} {puts : List Bytes} {largest : Nat}
    (h : record.Obeys) (hholds : record.before.Holds original puts)
    (hlargest : original.length ≤ largest) :
    record.before.perform? largest record.call = some (record.outcome, record.after) := by
  have hposition : record.before.position ≤ record.before.buffer.length :=
    hholds.position_le.trans_eq hholds.length_eq.symm
  rw [IndexedWriter.perform?_eq_put?]
  cases houtcome : record.outcome with
  | ok _ =>
      have henough : record.call.bytes.length ≤ record.before.remaining := by
        refine Nat.le_of_not_lt fun hshort => ?_
        obtain ⟨error, herror⟩ := h.fails_iff.2 hshort
        exact nomatch houtcome.symm.trans herror
      rw [h.succeeded houtcome]
      exact IndexedWriter.put?_of_le hposition (hholds.length_eq.trans_le hlargest) henough
  | error error =>
      obtain ⟨rfl, hafter⟩ := h.failed houtcome
      rw [hafter]
      exact IndexedWriter.put?_of_lt hposition (h.fails_iff.1 ⟨_, houtcome⟩)

end Record

namespace Call

/-- The writer that a call leaves behind, whether or not it succeeds. -/
def next (call : Call) (writer : Writer) : Writer := Action.left (call.perform writer)

/-- The record of a call on a writer. -/
def record (call : Call) (writer : Writer) : Record :=
  ⟨call, Action.outcome (call.perform writer), writer.indexed, (call.next writer).indexed⟩

variable {call : Call} {writer : Writer}

theorem next_of_le (h : call.bytes.length ≤ writer.remaining) :
    call.next writer = writer.append call.bytes := by
  rw [next, perform_eq_put, put_of_le h]
  rfl

theorem next_of_lt (h : writer.remaining < call.bytes.length) : call.next writer = writer := by
  rw [next, perform_eq_put, put_of_lt h]
  rfl

theorem record_of_le (h : call.bytes.length ≤ writer.remaining) :
    call.record writer =
      ⟨call, .ok (), writer.indexed, writer.indexed.overwrite call.bytes⟩ := by
  rw [record, next_of_le h, indexed_append, perform_eq_put, put_of_le h]
  rfl

theorem record_of_lt (h : writer.remaining < call.bytes.length) :
    call.record writer =
      ⟨call, .error (.bufferOverrun call.bytes.length writer.remaining), writer.indexed,
        writer.indexed⟩ := by
  rw [record, next_of_lt h, perform_eq_put, put_of_lt h]
  rfl

theorem record_obeys (call : Call) (writer : Writer) : (call.record writer).Obeys := by
  have hremaining := writer.remaining_indexed
  rcases Nat.lt_or_ge writer.remaining call.bytes.length with hshort | henough
  · rw [record_of_lt hshort, ← hremaining]
    refine ⟨iff_of_true ⟨_, rfl⟩ (hremaining.trans_lt hshort), ?_, nofun⟩
    rintro _ ⟨⟩
    exact ⟨rfl, rfl⟩
  · rw [record_of_le henough]
    rw [← hremaining] at henough
    exact ⟨iff_of_false nofun (Nat.not_lt_of_ge henough), nofun, fun _ => rfl⟩

/-- What a writer holds is kept by a call, and what the call put comes behind it. -/
theorem next_holds {original : Bytes} {puts : List Bytes}
    (h : writer.indexed.Holds original puts) (call : Call) :
    (call.next writer).indexed.Holds original (puts ++ (call.record writer).accepted) := by
  rcases Nat.lt_or_ge writer.remaining call.bytes.length with hshort | henough
  · rw [next_of_lt hshort, record_of_lt hshort]
    show writer.indexed.Holds original (puts ++ [])
    rwa [List.append_nil]
  · rw [next_of_le henough, record_of_le henough, indexed_append]
    exact h.overwrite (henough.trans_eq writer.remaining_indexed.symm)

end Call

/-- The records of the calls so far, and the writer that they have left behind. -/
structure Session where
  records : List Record
  writer : Writer

/-- One more call. -/
def Session.next (session : Session) (call : Call) : Session :=
  ⟨session.records ++ [call.record session.writer], call.next session.writer⟩

/-- Calls one after the other on a writer of a buffer that holds `original`, going on after those
that fail. -/
def run (original : Bytes) (calls : List Call) : Session :=
  calls.foldl Session.next ⟨[], ofBytes original⟩

/-- `session.Fills original calls` says what is true of a session of calls on a writer of a buffer
that held `original` at first. -/
structure Session.Fills (session : Session) (original : Bytes) (calls : List Call) : Prop where
  /-- Every call has its record. -/
  calls_eq : session.records.map Record.call = calls
  /-- A call fails exactly when it does not fit, and changes something only if it succeeds. -/
  obeys : ∀ record ∈ session.records, record.Obeys
  /-- A call begins with the buffer and the position with which the one before it ended. -/
  chained : ⟨original, 0⟩ :: session.records.map Record.after =
    session.records.map Record.before ++ [session.writer.indexed]
  /-- Before a call the buffer holds what was put until then, whatever failed in between. -/
  before_holds : ∀ earlier record later, session.records = earlier ++ record :: later →
    record.before.Holds original (earlier.flatMap Record.accepted)
  /-- So it does behind the last one. -/
  left_holds : session.writer.indexed.Holds original (session.records.flatMap Record.accepted)
  remaining_eq : session.writer.position + session.writer.remaining = original.length

namespace Session.Fills

variable {session : Session} {original : Bytes} {calls : List Call}

theorem nil (original : Bytes) : Fills ⟨[], ofBytes original⟩ original [] where
  calls_eq := rfl
  obeys := nofun
  chained := rfl
  before_holds earlier record later h := by simp at h
  left_holds := IndexedWriter.holds_nil original
  remaining_eq := Nat.zero_add _

theorem next (h : session.Fills original calls) (call : Call) :
    (session.next call).Fills original (calls ++ [call]) := by
  have hleft : (call.next session.writer).indexed.Holds original
      ((session.records ++ [call.record session.writer]).flatMap Record.accepted) := by
    rw [List.flatMap_append, List.flatMap_singleton]
    exact call.next_holds h.left_holds
  refine ⟨?_, ?_, ?_, ?_, hleft, ?_⟩
  · show (session.records ++ [call.record session.writer]).map Record.call = calls ++ [call]
    rw [List.map_append, h.calls_eq]
    rfl
  · exact List.forall_mem_append.2
      ⟨h.obeys, List.forall_mem_singleton.2 (call.record_obeys session.writer)⟩
  · show ⟨original, 0⟩ :: (session.records ++ [call.record session.writer]).map Record.after =
      (session.records ++ [call.record session.writer]).map Record.before ++ _
    rw [List.map_append, List.map_append, ← List.cons_append, h.chained]
    rfl
  · -- A record of the longer session is the new one or one of the shorter session.
    intro earlier record later hrecords
    rcases List.eq_nil_or_concat' later with rfl | ⟨later, last, rfl⟩
    · obtain ⟨rfl, hrecord⟩ := List.append_inj' hrecords rfl
      obtain rfl := List.singleton_inj.1 hrecord
      exact h.left_holds
    · have hsplit : session.records ++ [call.record session.writer] =
          (earlier ++ record :: later) ++ [last] := by
        rw [List.append_assoc]
        exact hrecords
      exact h.before_holds earlier record later (List.append_inj' hsplit rfl).1
  · show (call.next session.writer).position + (call.next session.writer).remaining =
      original.length
    rw [← length_buffer]
    exact hleft.length_eq

/-- What one more call keeps is true after any calls: by induction on them, from the last one. -/
theorem of_run (original : Bytes) (calls : List Call) :
    (run original calls).Fills original calls := by
  induction calls using List.reverseRecOn with
  | nil => exact nil original
  | append_singleton calls call ih =>
      rw [run, List.foldl_append]
      exact ih.next call

end Session.Fills

/-- Calls on a writer of a buffer, whatever it holds. A call fails exactly when it has more bytes
than there is room for, and then it changes nothing. At any time the buffer is as long as it was at
first, and it holds what the calls that succeeded have put, one after the other, and behind the
position what it held there at first. A machine does the same at each call, and nothing that it
computes on the way is out of range if the length of the buffer is not. -/
theorem run_fills (original : Bytes) (calls : List Call) :
    (run original calls).Fills original calls ∧
    ∀ largest, original.length ≤ largest → ∀ record ∈ (run original calls).records,
      record.before.perform? largest record.call = some (record.outcome, record.after) := by
  have hfills := Session.Fills.of_run original calls
  refine ⟨hfills, fun largest hlargest record hrecord => ?_⟩
  obtain ⟨earlier, later, hrecords⟩ := List.append_of_mem hrecord
  have hholds := hfills.before_holds earlier record later hrecords
  exact (hfills.obeys record hrecord).perform?_eq hholds hlargest

/-- Calls of which two have too many bytes, and two have none. -/
def unevenCalls : List Call :=
  [.put [9, 8], .put [1, 1, 1, 1], .putByte 7, .put [], .put [6, 5], .putByte 1, .put []]

/-- The calls that fit fill a buffer of five bytes, and those that do not change nothing. -/
theorem run_fills_uneven :
    (run [1, 2, 3, 4, 5] unevenCalls).Fills [1, 2, 3, 4, 5] unevenCalls ∧
    (run [1, 2, 3, 4, 5] unevenCalls).records.map Record.outcome =
      [.ok (), .error (.bufferOverrun 4 3), .ok (), .ok (), .ok (), .error (.bufferOverrun 1 0),
        .ok ()] ∧
    (run [1, 2, 3, 4, 5] unevenCalls).writer.indexed = ⟨[9, 8, 7, 6, 5], 5⟩ ∧
    IndexedWriter.perform? (2 ^ 64 - 1) ⟨[9, 8, 3, 4, 5], 2⟩ (.putByte 7) =
      some (.ok (), ⟨[9, 8, 7, 4, 5], 3⟩) := by
  obtain ⟨hfills, hmachine⟩ := run_fills [1, 2, 3, 4, 5] unevenCalls
  have hthird := hmachine (2 ^ 64 - 1) (by decide)
    ⟨.putByte 7, .ok (), ⟨[9, 8, 3, 4, 5], 2⟩, ⟨[9, 8, 7, 4, 5], 3⟩⟩
    (List.mem_of_getElem? (i := 2) rfl)
  exact ⟨hfills, rfl, rfl, hthird⟩

end Writer

end Switchboard
