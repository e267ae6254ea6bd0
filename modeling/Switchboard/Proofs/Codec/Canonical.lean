import Switchboard.Proofs.Codec.Lawful
import Switchboard.Proofs.Text.Canonical

/-!
# Canonical codecs

A codec is `Canonical` when whatever it reads it also writes, as exactly the bytes that it read, and
measures right. Words, truth values, texts and strings of bytes have canonical codecs, and so do
lists of anything that has one. The main results are `list_canonical`, for lists, and
`Writes.unique`, from which it follows that a canonical codec does not read the same value from
different bytes.
-/

namespace Switchboard

/-- `reader.Consumes bytes after` says that `bytes` are the next bytes of `reader`, and that `after`
is what becomes of it when they are read. -/
structure Reader.Consumes (reader : Reader) (bytes : Bytes) (after : Reader) : Prop where
  rest_eq : reader.rest = bytes ++ after.rest
  position_eq : after.position = reader.position + bytes.length

namespace Reader

variable {reader middle after : Reader} {bytes more : Bytes}

theorem consumes_nil (reader : Reader) : reader.Consumes [] reader :=
  ⟨rfl, rfl⟩

theorem Consumes.append (h : reader.Consumes bytes middle) (hmore : middle.Consumes more after) :
    reader.Consumes (bytes ++ more) after := by
  refine ⟨?_, ?_⟩
  · rw [h.rest_eq, hmore.rest_eq, List.append_assoc]
  · rw [hmore.position_eq, h.position_eq, List.length_append]
    omega

theorem consumes_of_take {count : Nat} (h : take count reader = .ok bytes after) :
    bytes.length = count ∧ reader.Consumes bytes after := by
  by_cases hroom : count ≤ reader.remaining
  · rw [take_of_le hroom] at h
    cases h
    have hlength : (reader.rest.take count).length = count := List.length_take_of_le hroom
    refine ⟨hlength, (List.take_append_drop count reader.rest).symm, ?_⟩
    show reader.position + count = reader.position + (reader.rest.take count).length
    rw [hlength]
  · rw [take_of_lt (Nat.lt_of_not_le hroom)] at h
    exact nomatch h

end Reader

namespace Codec

variable {α : Type}

/-- `codec.Writes a bytes` says that `a` has the size of `bytes`, and is written as `bytes` wherever
they fit. -/
structure Writes (codec : Codec α) (a : α) (bytes : Bytes) : Prop where
  sizeOf_eq : codec.sizeOf a = .ok bytes.length
  encode_eq (writer : Writer) : bytes.length ≤ writer.remaining →
    codec.encode a writer = .ok () (writer.append bytes)

/-- `codec.Canonical` says that what `codec` reads from some bytes it writes as these bytes. -/
def Canonical (codec : Codec α) : Prop :=
  ∀ {reader after : Reader} {a : α}, codec.decode reader = .ok a after →
    ∃ bytes, reader.Consumes bytes after ∧ codec.Writes a bytes

/-- What is written of a value, where there is room for it, is only one string of bytes. -/
theorem Writes.unique {codec : Codec α} {a : α} {bytes others : Bytes} (h : codec.Writes a bytes)
    (hothers : codec.Writes a others) : bytes = others := by
  have hlength : bytes.length = others.length := by
    simpa using h.sizeOf_eq.symm.trans hothers.sizeOf_eq
  -- Both are written into a writer that has as much room as the size says.
  have hroom := Writer.remaining_ofSize bytes.length
  have hsame := (h.encode_eq (.ofSize bytes.length) (by omega)).symm.trans
    (hothers.encode_eq (.ofSize bytes.length) (by omega))
  exact Writer.append_injective (by simpa using hsame)

theorem word_canonical [Word α] : (word α).Canonical := by
  intro reader after a h
  obtain ⟨bytes, middle, htake, hresult⟩ := Action.bind_eq_ok_iff.1 h
  cases hresult
  obtain ⟨hlength, hconsumes⟩ := Reader.consumes_of_take htake
  have hbound : bytes.toNat < Nat.pow 256 (Word.width α) := hlength ▸ Bytes.toNat_lt bytes
  have hencoding : wordEncoding (Word.ofNat bytes.toNat : α) = bytes := by
    rw [wordEncoding, Word.toNat_ofNat hbound, ← hlength, Bytes.ofNat_toNat]
  refine ⟨bytes, hconsumes, ?_, ?_⟩
  · rw [hlength]
    rfl
  · intro writer hroom
    show Writer.put (wordEncoding (Word.ofNat bytes.toNat : α)) writer = _
    rw [hencoding, Writer.put_of_le hroom]

/-- Only the two bytes that truth values are written as are read as truth values. -/
theorem bool_canonical : bool.Canonical := by
  intro reader after b h
  obtain ⟨byte, middle, hbyte, hresult⟩ := Action.bind_eq_ok_iff.1 h
  obtain ⟨bytes, hconsumes, hwrites⟩ := word_canonical hbyte
  have hspelled : (if b then 1 else 0) = byte ∧ after = middle := by
    split at hresult
    · cases hresult
      exact ⟨rfl, rfl⟩
    · cases hresult
      exact ⟨rfl, rfl⟩
    · exact nomatch hresult
  obtain ⟨rfl, rfl⟩ := hspelled
  refine ⟨bytes, hconsumes, hwrites.sizeOf_eq, ?_⟩
  intro writer hroom
  rw [← hwrites.encode_eq writer hroom]
  show Writer.put [if b then 1 else 0] writer = Writer.put _ writer
  cases b <;> rfl

theorem consumes_of_decodeLength {reader after : Reader} {length : Nat}
    (h : decodeLength reader = .ok length after) :
    length < 2 ^ 32 ∧ reader.Consumes (Bytes.ofNat 4 length) after := by
  obtain ⟨word, middle, hword, hresult⟩ := Action.bind_eq_ok_iff.1 h
  cases hresult
  obtain ⟨bytes, hconsumes, hwrites⟩ := word_canonical hword
  have hbytes : bytes = Bytes.ofNat 4 word.toNat := by
    refine hwrites.unique ⟨?_, fun writer hroom => Writer.put_of_le hroom⟩
    rw [Bytes.length_ofNat]
    rfl
  exact ⟨word.toNat_lt, hbytes ▸ hconsumes⟩

theorem bytes_canonical : bytes.Canonical := by
  intro reader after data h
  obtain ⟨length, middle, hlength, hdata⟩ := Action.bind_eq_ok_iff.1 h
  obtain ⟨hfits, hfront⟩ := consumes_of_decodeLength hlength
  obtain ⟨rfl, hrest⟩ := Reader.consumes_of_take hdata
  refine ⟨bytesEncoding data, hfront.append hrest, ?_, ?_⟩
  · rw [bytesEncoding, List.length_append, Bytes.length_ofNat]
    rfl
  · intro writer hroom
    exact bytes_encode_eq_ok_iff.2 ⟨hfits, hroom, rfl⟩

theorem string_canonical : string.Canonical := by
  intro reader after text h
  obtain ⟨data, middle, hdata, hresult⟩ := Action.bind_eq_ok_iff.1 h
  obtain ⟨bytes, hconsumes, hwrites⟩ := bytes_canonical hdata
  cases htext : Utf8.decode data with
  | error fault =>
      rw [htext] at hresult
      exact nomatch hresult
  | ok found =>
      rw [htext] at hresult
      cases hresult
      -- The bytes of the text are those that were read as it, so it is written as they are.
      obtain rfl := Utf8.encode_of_decode htext
      exact ⟨bytes, hconsumes, hwrites.sizeOf_eq, hwrites.encode_eq⟩

end Codec

/-- An untyped codec is canonical when it is so as a codec of values. -/
def ValueCodec.Canonical (codec : ValueCodec) : Prop := codec.untyped.Canonical

namespace Codec

variable {α : Type} {codec : Codec α}

/-- What an erased codec reads has the type that it checks for. -/
theorem erase_canonical (hcodec : codec.Canonical) (embedding : Embedding α) :
    (codec.erase embedding).Canonical := by
  intro reader after value h
  obtain ⟨a, middle, hdecode, hresult⟩ := Action.bind_eq_ok_iff.1 h
  cases hresult
  obtain ⟨bytes, hconsumes, hwrites⟩ := hcodec hdecode
  refine ⟨bytes, hconsumes, ?_, ?_⟩
  · exact (erase_sizeOf_wrap embedding codec a).trans hwrites.sizeOf_eq
  · intro writer hroom
    exact (congrFun (erase_encode_wrap embedding codec a) writer).trans
      (hwrites.encode_eq writer hroom)

section List

variable {element : ValueCodec}

/-- Elements are read from as many bytes as they measure, and written as these bytes. -/
theorem decodeItems_spec (helement : element.Canonical) {count : Nat} {reader after : Reader}
    {items : List Value} (h : decodeItems element count reader = .ok items after) :
    items.length = count ∧ ∃ bytes, reader.Consumes bytes after ∧
      sizeOfItems element items = .ok bytes.length ∧
      ∀ writer : Writer, bytes.length ≤ writer.remaining →
        encodeItems element items writer = .ok () (writer.append bytes) := by
  induction count generalizing reader items with
  | zero =>
      cases h
      refine ⟨rfl, [], Reader.consumes_nil _, rfl, ?_⟩
      intro writer _
      rw [Writer.append_nil]
      rfl
  | succ count ih =>
      obtain ⟨item, middle, hitem, hrest⟩ := Action.bind_eq_ok_iff.1 h
      obtain ⟨others, final, hothers, hresult⟩ := Action.bind_eq_ok_iff.1 hrest
      cases hresult
      obtain ⟨bytes, hconsumes, hwrites⟩ := helement hitem
      obtain ⟨hlength, more, hmore, hsize, hencode⟩ := ih hothers
      refine ⟨by rw [List.length_cons, hlength], bytes ++ more, hconsumes.append hmore, ?_, ?_⟩
      · have hfirst : element.sizeOf item = .ok bytes.length := hwrites.sizeOf_eq
        rw [sizeOfItems, hfirst, hsize, List.length_append]
        rfl
      · intro writer hroom
        rw [List.length_append] at hroom
        have hfirst := hwrites.encode_eq writer (by omega)
        have hremaining : more.length ≤ (writer.append bytes).remaining := by
          rw [Writer.remaining_append]
          omega
        rw [← Writer.append_append]
        exact (Action.bind_of_ok hfirst).trans (hencode _ hremaining)

/-- Lists are canonical if their elements are, however many the count in front announces. -/
theorem list_canonical (helement : element.Canonical) : (list element).Canonical := by
  intro reader after items h
  obtain ⟨count, middle, hcount, hitems⟩ := Action.bind_eq_ok_iff.1 h
  obtain ⟨hfits, hfront⟩ := consumes_of_decodeLength hcount
  obtain ⟨rfl, bytes, hconsumes, hsize, hencode⟩ := decodeItems_spec helement hitems
  refine ⟨Bytes.ofNat 4 items.length ++ bytes, hfront.append hconsumes, ?_, ?_⟩
  · show (do return 4 + (← sizeOfItems element items)) = _
    rw [hsize, List.length_append, Bytes.length_ofNat]
    rfl
  · intro writer hroom
    rw [List.length_append] at hroom
    have hlength : encodeLength items.length writer =
        .ok () (writer.append (Bytes.ofNat 4 items.length)) :=
      encodeLength_eq_ok_iff.2 ⟨hfits, by omega, rfl⟩
    have hremaining : bytes.length ≤ (writer.append (Bytes.ofNat 4 items.length)).remaining := by
      rw [Writer.remaining_append]
      omega
    rw [← Writer.append_append]
    exact (Action.bind_of_ok hlength).trans (hencode _ hremaining)

end List

end Codec

end Switchboard
