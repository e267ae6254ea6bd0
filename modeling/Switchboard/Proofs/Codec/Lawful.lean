import Switchboard.Codec.Standard
import Switchboard.Proofs.Action
import Switchboard.Proofs.Text.Utf8

/-!
# Lawful codecs

A codec is `Lawful` for an encoding when it appends exactly the encoding of whatever it manages to
write, measures it right, and reads it back from any position and whatever follows it. It is
`Steady` when there is nothing but the room that can keep it from writing again what it wrote once.
Words, truth values, texts and strings of bytes have lawful codecs, and so do lists of anything that
has one.
-/

namespace Switchboard

/-- `writer.Appends bytes after` says that `writer` has room for `bytes`, and that `after` is what
becomes of it when they are written. -/
structure Writer.Appends (writer : Writer) (bytes : Bytes) (after : Writer) : Prop where
  room : bytes.length ≤ writer.remaining
  after_eq : after = writer.append bytes

namespace Writer

variable {writer middle after : Writer} {bytes more : Bytes}

theorem remaining_ofSize (size : Nat) : (ofSize size).remaining = size := by
  simp [ofSize, ofBytes, remaining]

theorem put_eq_ok_iff : put bytes writer = .ok () after ↔ writer.Appends bytes after := by
  constructor
  · intro h
    by_cases hroom : bytes.length ≤ writer.remaining
    · rw [put_of_le hroom] at h
      cases h
      exact ⟨hroom, rfl⟩
    · rw [put_of_lt (Nat.lt_of_not_le hroom)] at h
      exact nomatch h
  · intro h
    rw [put_of_le h.room, h.after_eq]

theorem append_nil (writer : Writer) : writer.append [] = writer := by
  simp [append]

theorem append_append (writer : Writer) (bytes more : Bytes) :
    (writer.append bytes).append more = writer.append (bytes ++ more) := by
  have hwritten : writer.written ++ bytes ++ more = writer.written ++ (bytes ++ more) :=
    Array.toList_inj.1 (by simp)
  simp [append, hwritten, List.drop_drop]

/-- A writer tells what was put into it. -/
theorem append_injective (h : writer.append bytes = writer.append more) : bytes = more := by
  have hwritten := congrArg (fun writer => writer.written.toList) h
  simpa [append] using hwritten

theorem appends_nil_iff : writer.Appends [] after ↔ after = writer := by
  constructor
  · intro h
    rw [h.after_eq, append_nil]
  · intro h
    exact ⟨Nat.zero_le _, by rw [h, append_nil]⟩

theorem Appends.append (h : writer.Appends bytes middle) (hmore : middle.Appends more after) :
    writer.Appends (bytes ++ more) after := by
  have hroom := h.room
  have hmoreRoom := hmore.room
  rw [h.after_eq, remaining_append] at hmoreRoom
  refine ⟨?_, ?_⟩
  · rw [List.length_append]
    omega
  · rw [hmore.after_eq, h.after_eq, append_append]

/-- Bytes in two parts are appended one part after the other. -/
theorem Appends.split (h : writer.Appends (bytes ++ more) after) :
    writer.Appends bytes (writer.append bytes) ∧ (writer.append bytes).Appends more after := by
  have hroom := h.room
  rw [List.length_append] at hroom
  refine ⟨⟨by omega, rfl⟩, ⟨?_, ?_⟩⟩
  · rw [remaining_append]
    omega
  · rw [h.after_eq, append_append]

end Writer

/-- The next bytes of a reader are those in front. -/
theorem Reader.take_append (position : Nat) (bytes tail : Bytes) :
    take bytes.length ⟨position, bytes ++ tail⟩ = .ok bytes ⟨position + bytes.length, tail⟩ := by
  rw [take_of_le (by simp [remaining])]
  simp [forward]

namespace Codec

variable {α : Type}

/-- `codec.Lawful encoding` says that what `codec` writes is what `encoding` gives, that it is as
long as announced, and that it is read back from anywhere, whatever follows it. -/
structure Lawful (codec : Codec α) (encoding : α → Bytes) : Prop where
  appends {a : α} {writer after : Writer} : codec.encode a writer = .ok () after →
    writer.Appends (encoding a) after
  sizeOf_eq {a : α} {writer after : Writer} : codec.encode a writer = .ok () after →
    codec.sizeOf a = .ok (encoding a).length
  decode_eq {a : α} {writer after : Writer} : codec.encode a writer = .ok () after →
    ∀ position tail, codec.decode ⟨position, encoding a ++ tail⟩ =
      .ok a ⟨position + (encoding a).length, tail⟩

/-- `codec.Steady encoding` says that a value that can be written at all can be written wherever
there is room for its encoding. -/
def Steady (codec : Codec α) (encoding : α → Bytes) : Prop :=
  ∀ {a : α} {writer after : Writer} (other : Writer), codec.encode a writer = .ok () after →
    (encoding a).length ≤ other.remaining →
    codec.encode a other = .ok () (other.append (encoding a))

/-- The bytes of a word. -/
def wordEncoding {α : Type} [Word α] (a : α) : Bytes := Bytes.ofNat (Word.width α) (Word.toNat a)

theorem word_decode [Word α] (a : α) (position : Nat) (tail : Bytes) :
    (word α).decode ⟨position, wordEncoding a ++ tail⟩ =
      .ok a ⟨position + (wordEncoding a).length, tail⟩ := by
  have htake := Reader.take_append position (wordEncoding a) tail
  have hlength : (wordEncoding a).length = Word.width α := Bytes.length_ofNat _ _
  rw [hlength] at htake ⊢
  refine (Action.bind_of_ok htake).trans ?_
  show EStateM.Result.ok (Word.ofNat (Bytes.toNat (wordEncoding a))) _ = _
  rw [wordEncoding, Bytes.toNat_ofNat (Word.toNat_lt a), Word.ofNat_toNat]

theorem word_lawful [Word α] : (word α).Lawful wordEncoding where
  appends h := Writer.put_eq_ok_iff.1 h
  sizeOf_eq _ := by rw [wordEncoding, Bytes.length_ofNat]; rfl
  decode_eq _ := word_decode _

theorem word_steady [Word α] : (word α).Steady wordEncoding :=
  fun _ _ hroom => Writer.put_of_le hroom

/-- The byte of a truth value. -/
def boolEncoding (b : Bool) : Bytes := [if b then 1 else 0]

theorem bool_lawful : bool.Lawful boolEncoding where
  appends h := Writer.put_eq_ok_iff.1 h
  sizeOf_eq _ := rfl
  decode_eq _ _ _ := by
    rename_i b _ _ _ _ _
    cases b <;> rfl

theorem bool_steady : bool.Steady boolEncoding :=
  fun _ _ hroom => Writer.put_of_le hroom

/-- A length is written as four bytes if it fits into them. -/
theorem encodeLength_eq_ok_iff {length : Nat} {writer after : Writer} :
    encodeLength length writer = .ok () after ↔
      length < 2 ^ 32 ∧ writer.Appends (Bytes.ofNat 4 length) after := by
  unfold encodeLength
  have hsize : UInt32.size = 2 ^ 32 := rfl
  by_cases hfits : length < 2 ^ 32
  · have hlength : Word.toNat (UInt32.ofNat length) = length := Word.toNat_ofNat hfits
    rw [hsize, if_pos hfits]
    show Writer.put (Bytes.ofNat 4 (Word.toNat (UInt32.ofNat length))) writer = .ok () after ↔ _
    rw [hlength, Writer.put_eq_ok_iff]
    exact (and_iff_right hfits).symm
  · rw [hsize, if_neg hfits]
    exact ⟨nofun, fun h => absurd h.1 hfits⟩

theorem decodeLength_append {length : Nat} (h : length < 2 ^ 32) (position : Nat) (tail : Bytes) :
    decodeLength ⟨position, Bytes.ofNat 4 length ++ tail⟩ = .ok length ⟨position + 4, tail⟩ := by
  have hlength : Word.toNat (UInt32.ofNat length) = length := Word.toNat_ofNat h
  have hword := word_decode (UInt32.ofNat length) position tail
  have hencoding : wordEncoding (UInt32.ofNat length) = Bytes.ofNat 4 length := by
    rw [wordEncoding, hlength]
    rfl
  rw [hencoding, Bytes.length_ofNat] at hword
  refine (Action.bind_of_ok hword).trans ?_
  show EStateM.Result.ok (UInt32.ofNat length).toNat _ = _
  rw [show (UInt32.ofNat length).toNat = length from hlength]

/-- The bytes of a string of bytes, which has its length in front. -/
def bytesEncoding (data : Bytes) : Bytes := Bytes.ofNat 4 data.length ++ data

theorem bytes_encode_eq_ok_iff {data : Bytes} {writer after : Writer} :
    bytes.encode data writer = .ok () after ↔
      data.length < 2 ^ 32 ∧ writer.Appends (bytesEncoding data) after := by
  show (encodeLength data.length >>= fun _ => Writer.put data) writer = .ok () after ↔ _
  rw [Action.bind_eq_ok_iff]
  constructor
  · intro h
    obtain ⟨_, middle, hlength, hdata⟩ := h
    obtain ⟨hfits, hfront⟩ := encodeLength_eq_ok_iff.1 hlength
    exact ⟨hfits, hfront.append (Writer.put_eq_ok_iff.1 hdata)⟩
  · intro h
    obtain ⟨hfits, happends⟩ := h
    obtain ⟨hfront, hdata⟩ := happends.split
    exact ⟨(), _, encodeLength_eq_ok_iff.2 ⟨hfits, hfront⟩, Writer.put_eq_ok_iff.2 hdata⟩

theorem bytes_decode {data : Bytes} (h : data.length < 2 ^ 32) (position : Nat) (tail : Bytes) :
    bytes.decode ⟨position, bytesEncoding data ++ tail⟩ =
      .ok data ⟨position + (bytesEncoding data).length, tail⟩ := by
  rw [bytesEncoding, List.append_assoc, List.length_append, Bytes.length_ofNat, ← Nat.add_assoc]
  refine (Action.bind_of_ok (decodeLength_append h position (data ++ tail))).trans ?_
  exact Reader.take_append (position + 4) data tail

theorem bytes_lawful : bytes.Lawful bytesEncoding where
  appends h := (bytes_encode_eq_ok_iff.1 h).2
  sizeOf_eq _ := by rw [bytesEncoding, List.length_append, Bytes.length_ofNat]; rfl
  decode_eq h := bytes_decode (bytes_encode_eq_ok_iff.1 h).1

theorem bytes_steady : bytes.Steady bytesEncoding :=
  fun _ h hroom => bytes_encode_eq_ok_iff.2 ⟨(bytes_encode_eq_ok_iff.1 h).1, hroom, rfl⟩

/-- The bytes of a text. -/
def stringEncoding (text : String) : Bytes := bytesEncoding (Utf8.encode text)

theorem string_lawful : string.Lawful stringEncoding where
  appends h := bytes_lawful.appends h
  sizeOf_eq h := bytes_lawful.sizeOf_eq h
  decode_eq h position tail := by
    refine (Action.bind_of_ok (bytes_lawful.decode_eq h position tail)).trans ?_
    rw [Utf8.decode_encode]
    rfl

theorem string_steady : string.Steady stringEncoding :=
  fun other h hroom => bytes_steady other h hroom

end Codec

/-- An untyped codec as one of values of any type. -/
def ValueCodec.untyped (codec : ValueCodec) : Codec Value :=
  ⟨codec.sizeOf, codec.encode, codec.decode⟩

/-- An untyped codec is lawful when it is so as a codec of values. -/
def ValueCodec.Lawful (codec : ValueCodec) (encoding : Value → Bytes) : Prop :=
  codec.untyped.Lawful encoding

/-- An untyped codec is steady when it is so as a codec of values. -/
def ValueCodec.Steady (codec : ValueCodec) (encoding : Value → Bytes) : Prop :=
  codec.untyped.Steady encoding

namespace Codec

variable {α : Type} {codec : Codec α} {encoding : α → Bytes}

/-- The encoding of the values that hold an `α`. -/
def erasedEncoding (embedding : Embedding α) (encoding : α → Bytes) (value : Value) : Bytes :=
  (embedding.unwrap? value).elim [] encoding

/-- An erased codec writes only values that hold something to write. -/
theorem exists_of_erase_encode {embedding : Embedding α} {value : Value} {writer after : Writer}
    (h : (codec.erase embedding).encode value writer = .ok () after) :
    ∃ a, value = embedding.wrap a ∧ codec.encode a writer = .ok () after := by
  cases hunwrap : embedding.unwrap? value with
  | none =>
      have hexpect : expect embedding value = .error (.typeMismatch embedding.type) := by
        rw [expect, hunwrap]
      simp only [erase, hexpect] at h
      cases h
  | some a =>
      have hvalue := (embedding.unwrap?_eq_some_iff value a).1 hunwrap
      rw [hvalue, erase_encode_wrap] at h
      exact ⟨a, hvalue, h⟩

@[simp]
theorem erasedEncoding_wrap (embedding : Embedding α) (a : α) :
    erasedEncoding embedding encoding (embedding.wrap a) = encoding a := by
  simp [erasedEncoding]

/-- An erased codec is lawful for any layout of values that is right on those with its type. -/
theorem erase_lawful_of_wrap (hcodec : codec.Lawful encoding) (embedding : Embedding α)
    {layout : Value → Bytes} (hlayout : ∀ a, layout (embedding.wrap a) = encoding a) :
    (codec.erase embedding).Lawful layout where
  appends h := by
    obtain ⟨a, rfl, hencode⟩ := exists_of_erase_encode h
    rw [hlayout]
    exact hcodec.appends hencode
  sizeOf_eq h := by
    obtain ⟨a, rfl, hencode⟩ := exists_of_erase_encode h
    rw [hlayout]
    exact (erase_sizeOf_wrap embedding codec a).trans (hcodec.sizeOf_eq hencode)
  decode_eq h position tail := by
    obtain ⟨a, rfl, hencode⟩ := exists_of_erase_encode h
    rw [hlayout]
    exact Action.bind_of_ok (hcodec.decode_eq hencode position tail)

theorem erase_lawful (hcodec : codec.Lawful encoding) (embedding : Embedding α) :
    (codec.erase embedding).Lawful (erasedEncoding embedding encoding) :=
  erase_lawful_of_wrap hcodec embedding (erasedEncoding_wrap embedding)

theorem erase_steady (hcodec : codec.Steady encoding) (embedding : Embedding α) :
    (codec.erase embedding).Steady (erasedEncoding embedding encoding) := by
  intro value writer after other h hroom
  obtain ⟨a, rfl, hencode⟩ := exists_of_erase_encode h
  rw [erasedEncoding_wrap] at hroom ⊢
  exact (congrFun (erase_encode_wrap embedding codec a) other).trans (hcodec other hencode hroom)

/-- The bytes of a list, which has the number of its elements in front. -/
def listEncoding (encoding : Value → Bytes) (items : List Value) : Bytes :=
  Bytes.ofNat 4 items.length ++ items.flatMap encoding

section List

variable {element : ValueCodec} {encoding : Value → Bytes}

/-- Elements are written one behind the other, measured one by one, and read back in order. -/
theorem encodeItems_spec (helement : element.Lawful encoding) {items : List Value}
    {writer after : Writer} (h : encodeItems element items writer = .ok () after) :
    writer.Appends (items.flatMap encoding) after ∧
      sizeOfItems element items = .ok (items.flatMap encoding).length ∧
      ∀ position tail, decodeItems element items.length ⟨position, items.flatMap encoding ++ tail⟩ =
        .ok items ⟨position + (items.flatMap encoding).length, tail⟩ := by
  induction items generalizing writer with
  | nil =>
      cases h
      exact ⟨Writer.appends_nil_iff.2 rfl, rfl, fun _ _ => rfl⟩
  | cons item items ih =>
      -- Only a writer on which the element was written is known, and its laws hold from there.
      obtain ⟨_, middle, hitem, hitems⟩ := Action.bind_eq_ok_iff.1 h
      obtain ⟨happends, hsize, hdecode⟩ := ih hitems
      rw [List.flatMap_cons]
      refine ⟨(helement.appends hitem).append happends, ?_, ?_⟩
      · have hfirst : element.sizeOf item = .ok (encoding item).length := helement.sizeOf_eq hitem
        rw [sizeOfItems, hfirst, hsize, List.length_append]
        rfl
      · intro position tail
        have hfirst := helement.decode_eq hitem position (items.flatMap encoding ++ tail)
        rw [List.append_assoc, List.length_append, ← Nat.add_assoc]
        refine (Action.bind_of_ok hfirst).trans ?_
        exact Action.bind_of_ok (hdecode _ tail)

theorem encodeItems_steady (hsteady : element.Steady encoding) {items : List Value}
    {writer after : Writer} (other : Writer) (h : encodeItems element items writer = .ok () after)
    (hroom : (items.flatMap encoding).length ≤ other.remaining) :
    encodeItems element items other = .ok () (other.append (items.flatMap encoding)) := by
  induction items generalizing writer other with
  | nil =>
      rw [List.flatMap_nil, Writer.append_nil]
      rfl
  | cons item items ih =>
      obtain ⟨_, middle, hitem, hitems⟩ := Action.bind_eq_ok_iff.1 h
      rw [List.flatMap_cons, List.length_append] at hroom
      have hfirst := hsteady other hitem (by omega)
      have hrest := ih (other.append (encoding item)) hitems (by
        rw [Writer.remaining_append]
        omega)
      rw [List.flatMap_cons, ← Writer.append_append]
      exact (Action.bind_of_ok hfirst).trans hrest

theorem list_lawful (helement : element.Lawful encoding) :
    (list element).Lawful (listEncoding encoding) := by
  have hspec : ∀ {items : List Value} {writer after : Writer},
      (list element).encode items writer = .ok () after →
        items.length < 2 ^ 32 ∧ ∃ middle, writer.Appends (Bytes.ofNat 4 items.length) middle ∧
          encodeItems element items middle = .ok () after := by
    intro items writer after h
    obtain ⟨_, middle, hlength, hitems⟩ := Action.bind_eq_ok_iff.1 h
    obtain ⟨hfits, hfront⟩ := encodeLength_eq_ok_iff.1 hlength
    exact ⟨hfits, middle, hfront, hitems⟩
  refine ⟨?_, ?_, ?_⟩
  · intro items writer after h
    obtain ⟨-, middle, hfront, hitems⟩ := hspec h
    exact hfront.append (encodeItems_spec helement hitems).1
  · intro items writer after h
    obtain ⟨-, middle, -, hitems⟩ := hspec h
    show (do return 4 + (← sizeOfItems element items)) = _
    rw [(encodeItems_spec helement hitems).2.1, listEncoding, List.length_append,
      Bytes.length_ofNat]
    rfl
  · intro items writer after h position tail
    obtain ⟨hfits, middle, -, hitems⟩ := hspec h
    rw [listEncoding, List.append_assoc, List.length_append, Bytes.length_ofNat, ← Nat.add_assoc]
    refine (Action.bind_of_ok (decodeLength_append hfits position _)).trans ?_
    exact (encodeItems_spec helement hitems).2.2 (position + 4) tail

theorem list_steady (hsteady : element.Steady encoding) :
    (list element).Steady (listEncoding encoding) := by
  intro items writer after other h hroom
  obtain ⟨_, middle, hlength, hitems⟩ := Action.bind_eq_ok_iff.1 h
  obtain ⟨hfits, -⟩ := encodeLength_eq_ok_iff.1 hlength
  rw [listEncoding, List.length_append, Bytes.length_ofNat] at hroom
  have hfront : encodeLength items.length other =
      .ok () (other.append (Bytes.ofNat 4 items.length)) := by
    refine encodeLength_eq_ok_iff.2 ⟨hfits, ?_, rfl⟩
    rw [Bytes.length_ofNat]
    omega
  have hrest := encodeItems_steady hsteady
    (other.append (Bytes.ofNat 4 items.length)) hitems (by
      rw [Writer.remaining_append, Bytes.length_ofNat]
      omega)
  rw [listEncoding, ← Writer.append_append]
  exact (Action.bind_of_ok hfront).trans hrest

end List

end Codec

end Switchboard
