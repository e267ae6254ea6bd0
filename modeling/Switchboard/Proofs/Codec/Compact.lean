import Switchboard.Codec.Compact
import Switchboard.Proofs.Codec.Canonical
import Switchboard.Proofs.Reader.Calls

/-!
# Messages in the compact format

`IsVarint limit n bytes` says which bytes spell a number, and `Message.IsSpelled` which spell a
message. A format `Takes` its spellings when it reads them off the front of its input, reads nothing
else, and finds input truncated that ends inside of one. The main result,
`Message.codec_reads_spellings`, is about any format that writes and takes the spellings of
messages. It says that the codec of the format writes a message in one piece, that it reads it back
from any place, that it asks for more where a message was cut off, and that it moves behind what it
has read and not at all when it fails.
-/

namespace Switchboard

namespace Reader

variable {reader after : Reader} {bytes tail : Bytes}

theorem consumes_forward (h : reader.rest = bytes ++ tail) :
    reader.Consumes bytes (reader.forward bytes.length) := by
  refine ⟨?_, rfl⟩
  show reader.rest = bytes ++ reader.rest.drop bytes.length
  rw [h, List.drop_left]

theorem Consumes.after_eq (h : reader.Consumes bytes after) :
    after = reader.forward bytes.length := by
  have hrest : after.rest = reader.rest.drop bytes.length := by
    rw [h.rest_eq, List.drop_left]
  rw [forward, ← hrest, ← h.position_eq]

/-- The bytes in front of `tail` are as many as a reader has more than `tail`. -/
theorem length_sub_of_append (h : reader.rest = bytes ++ tail) :
    reader.rest.length - tail.length = bytes.length := by
  rw [h, List.length_append, Nat.add_sub_cancel]

/-- A reader of some data that has consumed bytes still reads this data. -/
theorem Consumes.reads {data : Bytes} (h : reader.Consumes bytes after)
    (hreads : reader.Reads data) : after.Reads data := by
  rw [h.after_eq]
  refine hreads.forward ?_
  rw [remaining, h.rest_eq, List.length_append]
  exact Nat.le_add_right _ _

end Reader

namespace Compact

/-- `IsVarint limit n bytes` says that `bytes`, of which there are at most `limit`, spell `n` with a
digit to the base 128 in each of them, lowest first. All but the last have the high bit set. -/
inductive IsVarint : (limit n : Nat) → Bytes → Prop where
  | last (limit : Nat) (byte : UInt8) : byte.toNat < 128 → IsVarint (limit + 1) byte.toNat [byte]
  | more (limit high : Nat) (byte : UInt8) (bytes : Bytes) : 128 ≤ byte.toNat →
      IsVarint limit high bytes →
      IsVarint (limit + 1) (byte.toNat - 128 + 128 * high) (byte :: bytes)

section Varint

variable {limit n top more : Nat} {input rest bytes cut tail : Bytes}

theorem isVarint_singleton (limit : Nat) (h : n < 128) :
    IsVarint (limit + 1) n [UInt8.ofNat n] := by
  have hbyte : (UInt8.ofNat n).toNat = n := Utf8.toNat_byte (by omega)
  have hvarint := IsVarint.last limit (UInt8.ofNat n) (by omega)
  rwa [hbyte] at hvarint

theorem IsVarint.cons (h : IsVarint limit (n / 128) bytes) :
    IsVarint (limit + 1) n (UInt8.ofNat (128 + n % 128) :: bytes) := by
  have hbyte : (UInt8.ofNat (128 + n % 128)).toNat = 128 + n % 128 := Utf8.toNat_byte (by omega)
  have hvalue : 128 + n % 128 - 128 + 128 * (n / 128) = n := by omega
  have hvarint := IsVarint.more limit (n / 128) (UInt8.ofNat (128 + n % 128)) bytes (by omega) h
  rwa [hbyte, hvalue] at hvarint

theorem isVarint_writeVarint (h : n < Nat.pow 128 (limit + 1)) :
    IsVarint (limit + 1) n (writeVarint (limit + 1) n) := by
  induction limit generalizing n with
  | zero =>
      have hsmall : n < 128 := by simpa using h
      rw [writeVarint, if_pos hsmall]
      exact isVarint_singleton 0 hsmall
  | succ limit ih =>
      have hbound : n < Nat.pow 128 (limit + 1) * 128 := h
      by_cases hsmall : n < 128
      · rw [writeVarint, if_pos hsmall]
        exact isVarint_singleton (limit + 1) hsmall
      · rw [writeVarint, if_neg hsmall]
        exact (ih (by omega)).cons

/-- A number that is small enough is read off the front of the input. -/
theorem readVarint_append (h : IsVarint (more + 1) n bytes)
    (hn : n < (top + 1) * Nat.pow 128 more) (rest : Bytes) :
    readVarint top more (bytes ++ rest) = .ok (n, rest) := by
  induction more generalizing n bytes with
  | zero =>
      cases h with
      | last _ byte hbyte =>
          have hfits : byte.toNat ≤ top := by
            have hbound : byte.toNat < (top + 1) * 1 := hn
            omega
          rw [List.singleton_append, readVarint, if_pos hfits]
      | more _ high byte bytes hbyte hhigh => cases hhigh
  | succ more ih =>
      cases h with
      | last _ byte hbyte => rw [List.singleton_append, readVarint, if_pos hbyte]
      | more _ high byte bytes hbyte hhigh =>
          have hbound : high < (top + 1) * Nat.pow 128 more := by
            have hpow : (top + 1) * Nat.pow 128 (more + 1) = (top + 1) * Nat.pow 128 more * 128 :=
              (Nat.mul_assoc _ _ _).symm
            omega
          rw [List.cons_append, readVarint, if_neg (Nat.not_lt_of_le hbyte), ih hhigh hbound]
          rfl

/-- What is read as a number spells it in at most so many bytes, and the number is small enough. -/
theorem isVarint_of_readVarint (htop : top < 128) (h : readVarint top more input = .ok (n, rest)) :
    ∃ bytes, IsVarint (more + 1) n bytes ∧ n < (top + 1) * Nat.pow 128 more ∧
      input = bytes ++ rest := by
  induction more generalizing input n with
  | zero =>
      cases input with
      | nil => cases h
      | cons byte input =>
          rw [readVarint] at h
          by_cases hbyte : byte.toNat ≤ top
          · rw [if_pos hbyte] at h
            cases h
            refine ⟨[byte], .last 0 byte (by omega), ?_, rfl⟩
            show byte.toNat < (top + 1) * 1
            omega
          · rw [if_neg hbyte] at h
            cases h
  | succ more ih =>
      have hpow : (top + 1) * Nat.pow 128 (more + 1) = (top + 1) * Nat.pow 128 more * 128 :=
        (Nat.mul_assoc _ _ _).symm
      cases input with
      | nil => cases h
      | cons byte input =>
          have hlt := byte.toNat_lt
          rw [readVarint] at h
          by_cases hbyte : byte.toNat < 128
          · rw [if_pos hbyte] at h
            cases h
            have hpos : 0 < (top + 1) * Nat.pow 128 more :=
              Nat.mul_pos (Nat.succ_pos top) (Nat.pow_pos (by omega))
            exact ⟨[byte], .last (more + 1) byte hbyte, by omega, rfl⟩
          · rw [if_neg hbyte] at h
            cases hhigh : readVarint top more input with
            | error error => simp [hhigh, bind, Except.bind] at h
            | ok found =>
                obtain ⟨high, left⟩ := found
                simp only [hhigh, bind, Except.bind, pure, Except.pure] at h
                cases h
                obtain ⟨bytes, hvarint, hbound, rfl⟩ := ih hhigh
                exact ⟨byte :: bytes, .more (more + 1) high byte bytes (by omega) hvarint, by omega,
                  rfl⟩

/-- Input that ends inside a number is truncated. -/
theorem readVarint_of_cut (h : IsVarint (more + 1) n (cut ++ tail)) (htail : tail ≠ []) :
    readVarint top more cut = .error .truncated := by
  induction more generalizing n cut with
  | zero =>
      cases cut with
      | nil => rfl
      | cons byte cut =>
          rw [List.cons_append] at h
          generalize hbytes : cut ++ tail = bytes at h
          cases h with
          | last _ _ hbyte => exact absurd (List.append_eq_nil_iff.1 hbytes).2 htail
          | more _ high _ _ hbyte hhigh => cases hhigh
  | succ more ih =>
      cases cut with
      | nil => rfl
      | cons byte cut =>
          rw [List.cons_append] at h
          generalize hbytes : cut ++ tail = bytes at h
          cases h with
          | last _ _ hbyte => exact absurd (List.append_eq_nil_iff.1 hbytes).2 htail
          | more _ high _ _ hbyte hhigh =>
              rw [← hbytes] at hhigh
              rw [readVarint, if_neg (Nat.not_lt_of_le hbyte), ih hhigh]
              rfl

end Varint

/-- `format.Takes Spells` says that `format` reads a value where one of its spellings is in front of
the input, leaves what is behind the spelling, and reads nothing else, and that input that ends
inside a spelling is truncated. -/
structure Format.Takes {α : Type} (format : Format α) (Spells : α → Bytes → Prop) : Prop where
  read_eq_ok_iff {input rest : Bytes} {a : α} : format.read input = .ok (a, rest) ↔
    ∃ bytes, Spells a bytes ∧ input = bytes ++ rest
  truncated {a : α} {cut tail : Bytes} : Spells a (cut ++ tail) → tail ≠ [] →
    format.read cut = .error .truncated

/-- The spellings of 32-bit numbers. -/
def SpellsNumber (n : UInt32) (bytes : Bytes) : Prop := IsVarint 5 n.toNat bytes

theorem u32_takes : u32.Takes SpellsNumber where
  read_eq_ok_iff {input rest n} := by
    constructor
    · intro h
      cases hread : readVarint 0x0F 4 input with
      | error error => simp [u32, hread, bind, Except.bind] at h
      | ok found =>
          obtain ⟨value, left⟩ := found
          simp only [u32, hread, bind, Except.bind, pure, Except.pure] at h
          cases h
          obtain ⟨bytes, hvarint, hbound, rfl⟩ := isVarint_of_readVarint (by omega) hread
          have hvalue : (UInt32.ofNat value).toNat = value := UInt32.toNat_ofNat_of_lt' hbound
          exact ⟨bytes, by rwa [SpellsNumber, hvalue], rfl⟩
    · rintro ⟨bytes, hvarint, rfl⟩
      have hread : readVarint 0x0F 4 (bytes ++ rest) = .ok (n.toNat, rest) :=
        readVarint_append hvarint n.toNat_lt rest
      simp [u32, hread, bind, Except.bind, pure, Except.pure]
  truncated h htail := by
    simp [u32, readVarint_of_cut h htail, bind, Except.bind]

/-- The spellings of texts: the length of the UTF-8, a 64-bit number, and the UTF-8. -/
def SpellsText (text : String) (bytes : Bytes) : Prop :=
  (Utf8.encode text).length < 2 ^ 64 ∧
    ∃ front, IsVarint 10 (Utf8.encode text).length front ∧ bytes = front ++ Utf8.encode text

section Text

variable {input rest : Bytes} {length : Nat}

theorem text_read_of_lt (h : readVarint 0x01 9 input = .ok (length, rest))
    (hshort : rest.length < length) : text.read input = .error .truncated := by
  simp [text, h, hshort, bind, Except.bind, throw, throwThe, MonadExceptOf.throw]

theorem text_read_of_le (h : readVarint 0x01 9 input = .ok (length, rest))
    (henough : length ≤ rest.length) :
    text.read input = match Utf8.decode (rest.take length) with
      | .ok text => .ok (text, rest.drop length)
      | .error _ => .error (.malformed .invalidText) := by
  simp only [text, h, Nat.not_lt_of_le henough, bind, Except.bind, if_false]
  rfl

end Text

/-- Where a string of bytes in two parts was cut: inside the first part, or behind it. -/
theorem cut_cases {front back cut tail : Bytes} (h : front ++ back = cut ++ tail) :
    (∃ inside, inside ≠ [] ∧ front = cut ++ inside) ∨
      ∃ inside, cut = front ++ inside ∧ back = inside ++ tail := by
  rcases List.append_eq_append_iff.1 h with ⟨inside, rfl, hback⟩ | ⟨inside, hfront, htail⟩
  · exact .inr ⟨inside, rfl, hback⟩
  · by_cases hinside : inside = []
    · subst hinside
      rw [List.append_nil] at hfront
      exact .inr ⟨[], by rw [hfront, List.append_nil], htail.symm⟩
    · exact .inl ⟨inside, hinside, hfront⟩

theorem text_takes : text.Takes SpellsText where
  read_eq_ok_iff {input rest name} := by
    constructor
    · intro h
      cases hread : readVarint 0x01 9 input with
      | error error => simp [text, hread, bind, Except.bind] at h
      | ok found =>
          obtain ⟨length, left⟩ := found
          by_cases hshort : left.length < length
          · rw [text_read_of_lt hread hshort] at h
            cases h
          · have henough : length ≤ left.length := Nat.le_of_not_lt hshort
            rw [text_read_of_le hread henough] at h
            cases hname : Utf8.decode (left.take length) with
            | error fault =>
                rw [hname] at h
                cases h
            | ok found =>
                rw [hname] at h
                cases h
                obtain ⟨front, hvarint, hbound, rfl⟩ := isVarint_of_readVarint (by omega) hread
                have hbytes := Utf8.encode_of_decode hname
                have hlength : (Utf8.encode name).length = length := by
                  rw [hbytes, List.length_take_of_le henough]
                refine ⟨_, ⟨hlength ▸ hbound, front, hlength ▸ hvarint, rfl⟩, ?_⟩
                rw [hbytes, List.append_assoc, List.take_append_drop]
    · rintro ⟨bytes, ⟨hbound, front, hvarint, rfl⟩, rfl⟩
      have hread : readVarint 0x01 9 (front ++ (Utf8.encode name ++ rest)) =
          .ok ((Utf8.encode name).length, Utf8.encode name ++ rest) :=
        readVarint_append hvarint hbound _
      rw [List.append_assoc, text_read_of_le hread (by simp), List.take_left, List.drop_left,
        Utf8.decode_encode]
  truncated {name cut tail} h htail := by
    obtain ⟨hbound, front, hvarint, hbytes⟩ := h
    rcases cut_cases hbytes.symm with ⟨inside, hinside, rfl⟩ | ⟨inside, rfl, hback⟩
    · simp [text, readVarint_of_cut hvarint hinside, bind, Except.bind]
    · have hread : readVarint 0x01 9 (front ++ inside) = .ok ((Utf8.encode name).length, inside) :=
        readVarint_append hvarint hbound inside
      refine text_read_of_lt hread ?_
      rw [hback, List.length_append]
      exact Nat.lt_add_of_pos_right (List.length_pos_of_ne_nil htail)

/-- What the codec of a format fails with on `length` bytes. One more would be needed where the
input is truncated. -/
def ReadError.reported (length : Nat) : ReadError → CodecError
  | truncated => .bufferUnderrun (length + 1) length
  | malformed fault => .compact fault

namespace Format

variable {α : Type} {format : Format α} {reader after : Reader} {bytes tail : Bytes} {a : α}

theorem Takes.read_append {Spells : α → Bytes → Prop} (h : format.Takes Spells)
    (hbytes : Spells a bytes) (rest : Bytes) : format.read (bytes ++ rest) = .ok (a, rest) :=
  h.read_eq_ok_iff.2 ⟨bytes, hbytes, rfl⟩

theorem sizeOf_of_ok (h : format.write a = .ok bytes) :
    format.codec.sizeOf a = .ok bytes.length := by
  simp only [codec, h]

/-- A value is written in one piece. -/
theorem encode_of_ok (h : format.write a = .ok bytes) :
    format.codec.encode a = Writer.put bytes := by
  simp only [codec, h]

theorem decode_of_ok (h : format.read reader.rest = .ok (a, tail)) :
    format.codec.decode reader = .ok a (reader.forward (reader.rest.length - tail.length)) := by
  have hget : (get : ReadM Reader) reader = .ok reader reader := rfl
  simp only [codec]
  rw [Action.bind_of_ok hget]
  simp only [h]
  exact Action.bind_of_ok (Reader.advance_of_le (Nat.sub_le _ _))

theorem decode_of_error {error : ReadError} (h : format.read reader.rest = .error error) :
    format.codec.decode reader = .error (error.reported reader.rest.length) reader := by
  have hget : (get : ReadM Reader) reader = .ok reader reader := rfl
  simp only [codec]
  rw [Action.bind_of_ok hget]
  cases error with
  | truncated =>
      simp only [h]
      rfl
  | malformed fault =>
      simp only [h]
      rfl

/-- Whatever the format, a value that cannot be read leaves the reader where it was. -/
theorem eq_of_decode_error {error : CodecError}
    (h : format.codec.decode reader = .error error after) : after = reader := by
  cases hread : format.read reader.rest with
  | ok found =>
      rw [decode_of_ok hread] at h
      cases h
  | error fault =>
      rw [decode_of_error hread] at h
      cases h
      rfl

/-- What is read is spelled in the bytes that the reader moves over. -/
theorem Takes.decode_eq_ok_iff {Spells : α → Bytes → Prop} (h : format.Takes Spells) :
    format.codec.decode reader = .ok a after ↔
      ∃ bytes, Spells a bytes ∧ reader.Consumes bytes after := by
  constructor
  · intro hdecode
    cases hread : format.read reader.rest with
    | ok found =>
        obtain ⟨bytes, hbytes, hrest⟩ := h.read_eq_ok_iff.1 hread
        rw [decode_of_ok hread, Reader.length_sub_of_append hrest] at hdecode
        cases hdecode
        exact ⟨bytes, hbytes, Reader.consumes_forward hrest⟩
    | error fault =>
        rw [decode_of_error hread] at hdecode
        cases hdecode
  · rintro ⟨bytes, hbytes, hconsumes⟩
    have hread : format.read reader.rest = .ok (a, after.rest) :=
      h.read_eq_ok_iff.2 ⟨bytes, hbytes, hconsumes.rest_eq⟩
    rw [decode_of_ok hread, Reader.length_sub_of_append hconsumes.rest_eq, ← hconsumes.after_eq]

end Format

namespace Message

/-- The spellings of a message: one of its number, and behind it one of its name. -/
def IsSpelled (message : Message) (bytes : Bytes) : Prop :=
  ∃ number name, SpellsNumber message.id number ∧ SpellsText message.name name ∧
    bytes = number ++ name

theorem format_takes : format.Takes IsSpelled where
  read_eq_ok_iff {input rest message} := by
    constructor
    · intro h
      cases hid : u32.read input with
      | error error => simp [format, hid, bind, Except.bind] at h
      | ok found =>
          obtain ⟨id, middle⟩ := found
          cases hname : text.read middle with
          | error error => simp [format, hid, hname, bind, Except.bind] at h
          | ok found =>
              obtain ⟨name, left⟩ := found
              simp only [format, hid, hname, bind, Except.bind, pure, Except.pure] at h
              cases h
              obtain ⟨front, hfront, rfl⟩ := u32_takes.read_eq_ok_iff.1 hid
              obtain ⟨back, hback, rfl⟩ := text_takes.read_eq_ok_iff.1 hname
              exact ⟨_, ⟨front, back, hfront, hback, rfl⟩, (List.append_assoc ..).symm⟩
    · rintro ⟨bytes, ⟨front, back, hfront, hback, rfl⟩, rfl⟩
      have hid := u32_takes.read_append hfront (back ++ rest)
      rw [List.append_assoc]
      have hname := text_takes.read_append hback rest
      simp [format, hid, hname, bind, Except.bind, pure, Except.pure]
  truncated {message cut tail} h htail := by
    obtain ⟨front, back, hfront, hback, hbytes⟩ := h
    rcases cut_cases hbytes.symm with ⟨inside, hinside, rfl⟩ | ⟨inside, rfl, rfl⟩
    · simp [format, u32_takes.truncated hfront hinside, bind, Except.bind]
    · have hid := u32_takes.read_append hfront inside
      simp [format, hid, text_takes.truncated hback htail, bind, Except.bind]

/-- The bytes that a message is written as. -/
def encoding (message : Message) : Bytes :=
  let name := Utf8.encode message.name
  writeVarint 5 message.id.toNat ++ (writeVarint 10 name.length ++ name)

theorem isSpelled_encoding {message : Message}
    (h : (Utf8.encode message.name).length < 2 ^ 64) : message.IsSpelled message.encoding := by
  have hid : message.id.toNat < Nat.pow 128 (4 + 1) := by
    have hlt : message.id.toNat < 2 ^ 32 := message.id.toNat_lt
    have hpow : Nat.pow 128 (4 + 1) = 2 ^ 35 := rfl
    omega
  have hlength : (Utf8.encode message.name).length < Nat.pow 128 (9 + 1) := by
    have hpow : Nat.pow 128 (9 + 1) = 2 ^ 70 := rfl
    omega
  exact ⟨_, _, isVarint_writeVarint hid, ⟨h, _, isVarint_writeVarint hlength, rfl⟩, rfl⟩

/-- What is assumed of a format of messages: as long as the length of its name is a 64-bit number, a
message is written as one of its spellings, and the spellings are what is read. -/
structure WireFormat (format : Format Message) : Prop where
  written {message : Message} : (Utf8.encode message.name).length < 2 ^ 64 →
    ∃ bytes, format.write message = .ok bytes ∧ message.IsSpelled bytes
  takes : format.Takes IsSpelled

theorem format_wireFormat : WireFormat format where
  written h := ⟨_, rfl, isSpelled_encoding h⟩
  takes := format_takes

/-- The codec of a format of messages. A message is written in one piece, in as many bytes as it
measures, or not at all when there is no room for them. It is read back from any place in a buffer,
whatever stands before and behind it, and where it was cut off one byte more than there is is asked
for. In any buffer, what is read is spelled in the bytes that the reader moves over, and a reader
with nothing that can be read does not move. -/
theorem codec_reads_spellings (format : Format Message) (hformat : WireFormat format) :
    (∀ message : Message, (Utf8.encode message.name).length < 2 ^ 64 →
      ∃ bytes, format.write message = .ok bytes ∧ message.IsSpelled bytes ∧
        format.codec.sizeOf message = .ok bytes.length ∧
        format.codec.encode message = Writer.put bytes ∧
        (∀ writer : Writer,
          (bytes.length ≤ writer.remaining →
            format.codec.encode message writer = .ok () (writer.append bytes)) ∧
          (writer.remaining < bytes.length → format.codec.encode message writer =
            .error (.bufferOverrun bytes.length writer.remaining) writer)) ∧
        (∀ before tail, ∃ reader,
          Reader.ofOffset (before ++ bytes ++ tail) before.length = .ok reader ∧
          format.codec.decode reader = .ok message ⟨before.length + bytes.length, tail⟩) ∧
        ∀ before cut, cut <+: bytes → cut ≠ bytes → ∃ reader,
          Reader.ofOffset (before ++ cut) before.length = .ok reader ∧
          format.codec.decode reader =
            .error (.bufferUnderrun (cut.length + 1) cut.length) reader) ∧
    ∀ (buffer : Bytes) (offset : Nat) (reader : Reader),
      Reader.ofOffset buffer offset = .ok reader →
        (∀ error after, format.codec.decode reader = .error error after → after = reader) ∧
        ∀ message after,
          (format.codec.decode reader = .ok message after ↔
            ∃ bytes, message.IsSpelled bytes ∧ reader.Consumes bytes after) ∧
          (format.codec.decode reader = .ok message after →
            offset ≤ after.position ∧ after.position ≤ buffer.length ∧
              after.rest = buffer.drop after.position) := by
  constructor
  · intro message hlength
    obtain ⟨bytes, hwrite, hspelled⟩ := hformat.written hlength
    have hencode := Format.encode_of_ok hwrite
    refine ⟨bytes, hwrite, hspelled, Format.sizeOf_of_ok hwrite, hencode, ?_, ?_, ?_⟩
    · intro writer
      rw [hencode]
      exact ⟨Writer.put_of_le, Writer.put_of_lt⟩
    · intro before tail
      have hdrop : (before ++ bytes ++ tail).drop before.length = bytes ++ tail := by
        rw [List.append_assoc, List.drop_left]
      refine ⟨_, Reader.ofOffset_eq_ok_iff.2 ⟨by simp, rfl⟩, ?_⟩
      exact hformat.takes.decode_eq_ok_iff.2 ⟨bytes, hspelled, hdrop, rfl⟩
    · rintro before cut ⟨tail, hcut⟩ hshort
      have htail : tail ≠ [] := by
        rintro rfl
        exact hshort (by rw [← hcut, List.append_nil])
      have hread := hformat.takes.truncated (hcut ▸ hspelled) htail
      have hdecode : format.codec.decode ⟨before.length, cut⟩ =
          .error (ReadError.truncated.reported cut.length) ⟨before.length, cut⟩ :=
        Format.decode_of_error hread
      exact ⟨_, Reader.ofOffset_eq_ok_iff.2 ⟨by simp, by rw [List.drop_left]⟩, hdecode⟩
  · intro buffer offset reader hreader
    obtain ⟨hoffset, rfl⟩ := Reader.ofOffset_eq_ok_iff.1 hreader
    refine ⟨fun _ _ => Format.eq_of_decode_error, ?_⟩
    intro message after
    refine ⟨hformat.takes.decode_eq_ok_iff, ?_⟩
    intro hdecode
    obtain ⟨bytes, -, hconsumes⟩ := hformat.takes.decode_eq_ok_iff.1 hdecode
    have hreads : after.Reads buffer := hconsumes.reads ⟨hoffset, rfl⟩
    have hposition : after.position = offset + bytes.length := hconsumes.position_eq
    exact ⟨by omega, hreads.position_le, hreads.rest_eq⟩

/-- A message with a number of two bytes is written where there is room for its six bytes, and not
in five. It is read back from between other bytes, one byte more is asked for where its last
character was cut off, and a longer spelling of its number is read as well. -/
theorem codec_reads_spellings_greeting :
    WireFormat format ∧
    format.codec.sizeOf ⟨300, "añ"⟩ = .ok 6 ∧
    (format.codec.encode ⟨300, "añ"⟩ (.ofSize 6) =
        .ok () ((Writer.ofSize 6).append [172, 2, 3, 97, 195, 177]) ∧
      format.codec.encode ⟨300, "añ"⟩ (.ofSize 5) = .error (.bufferOverrun 6 5) (.ofSize 5)) ∧
    (∃ reader, Reader.ofOffset [9, 172, 2, 3, 97, 195, 177, 7] 1 = .ok reader ∧
      format.codec.decode reader = .ok ⟨300, "añ"⟩ ⟨7, [7]⟩) ∧
    (∃ reader, Reader.ofOffset [9, 172, 2, 3, 97, 195] 1 = .ok reader ∧
      format.codec.decode reader = .error (.bufferUnderrun 6 5) reader) ∧
    ∃ bytes, IsSpelled ⟨300, "añ"⟩ bytes ∧
      Reader.Consumes ⟨1, [172, 130, 0, 3, 97, 195, 177, 7]⟩ bytes ⟨8, [7]⟩ := by
  obtain ⟨hreads, hmoves⟩ := codec_reads_spellings format format_wireFormat
  obtain ⟨bytes, hwrite, -, hsize, -, hroom, hback, hcut⟩ := hreads ⟨300, "añ"⟩ (by decide)
  obtain rfl : [172, 2, 3, 97, 195, 177] = bytes := Except.ok.inj hwrite
  obtain ⟨-, hread⟩ := hmoves [9, 172, 130, 0, 3, 97, 195, 177, 7] 1
    ⟨1, [172, 130, 0, 3, 97, 195, 177, 7]⟩ rfl
  exact ⟨format_wireFormat, hsize,
    ⟨(hroom (.ofSize 6)).1 (by decide), (hroom (.ofSize 5)).2 (by decide)⟩, hback [9] [7],
    hcut [9] [172, 2, 3, 97, 195] ⟨[177], rfl⟩ (by decide), (hread ⟨300, "añ"⟩ ⟨8, [7]⟩).1.1 rfl⟩

end Message

end Compact

end Switchboard
