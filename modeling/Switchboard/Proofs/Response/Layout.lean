import Switchboard.Proofs.Registry.Standard
import Switchboard.Response.Layout

/-!
# What a response consists of

`Field.Lays` says that a field takes certain bytes wherever there is room for them, and that its
value is read back from them. The main result, `Field.encodeAll_of_lays`, says that fields with this
property are laid out one behind the other in exactly the announced size, and `decodeAll_of_lays`
that their values are read back in order.
-/

namespace Switchboard

/-- The bytes that a codec makes of a value by itself. -/
def ValueCodec.encoded (codec : ValueCodec) (value : Value) : Except CodecError Bytes :=
  Field.encodeAll [⟨codec, value⟩]

/-- Reads one value with each codec, one behind the other. -/
def ValueCodec.decodeAll : List ValueCodec → ReadM (List Value)
  | [] => pure []
  | codec :: codecs => do
      let value ← codec.decode
      let values ← decodeAll codecs
      pure (value :: values)

namespace Field

/-- `field.Lays bytes` says that `bytes` are the layout of the field: it has their size, it is
written as these bytes wherever they fit, and its value is read back from them. -/
structure Lays (field : Field) (bytes : Bytes) : Prop where
  sizeOf_eq : field.codec.sizeOf field.value = .ok bytes.length
  encode_eq (writer : Writer) : bytes.length ≤ writer.remaining →
    field.codec.encode field.value writer = .ok () (writer.append bytes)
  decode_eq (position : Nat) (tail : Bytes) :
    field.codec.decode ⟨position, bytes ++ tail⟩ =
      .ok field.value ⟨position + bytes.length, tail⟩

/-- A field is written when its codec writes as many bytes as it announced. -/
theorem write_eq_ok_iff {field : Field} {declared : Nat} {writer after : Writer} :
    field.write declared writer = .ok () after ↔
      field.codec.encode field.value writer = .ok () after ∧
        after.position - writer.position = declared := by
  simp only [write, bind, EStateM.bind, get, getThe, MonadStateOf.get, EStateM.get]
  cases hencode : field.codec.encode field.value writer with
  | error error middle => simp
  | ok _ middle =>
      by_cases hsize : middle.position - writer.position = declared
      · simp only [hsize, ne_eq, not_true_eq_false, if_false]
        constructor
        · intro h
          cases h
          exact ⟨rfl, hsize⟩
        · intro h
          obtain ⟨h, -⟩ := h
          cases h
          rfl
      · simp only [hsize, ne_eq, not_false_eq_true, if_true]
        constructor
        · intro h
          exact nomatch h
        · intro h
          obtain ⟨h, hother⟩ := h
          cases h
          exact absurd hother hsize

section Fill

variable {fields : List Field} {declared : List Nat} {bytes : Bytes} {writer : Writer}

/-- A buffer is filled when all fields can be written. -/
theorem fill_eq_ok_iff :
    fill fields declared writer = .ok bytes ↔
      ∃ after, writeAll fields declared writer = .ok () after ∧ after.buffer = bytes := by
  simp only [fill, EStateM.run]
  cases writeAll fields declared writer with
  | error error after => simp [throw, throwThe, MonadExceptOf.throw]
  | ok _ after => simp [pure, Except.pure]

/-- A field that cannot be written ends the filling. -/
theorem fill_of_error {error : CodecError} {after : Writer}
    (h : writeAll fields declared writer = .error error after) :
    fill fields declared writer = .error error := by
  simp only [fill, EStateM.run, h]
  rfl

theorem encodeAll_of_sizes (h : sizes fields = .ok declared) :
    encodeAll fields = fill fields declared (.ofSize declared.sum) := by
  simp only [encodeAll, h, ← List.sum_eq_foldr]
  rfl

theorem encodeAll?_of_sizes (h : sizes fields = .ok declared) :
    encodeAll? fields = (Writer.allocate? declared.sum).map (fill fields declared) := by
  simp only [encodeAll?, h, ← List.sum_eq_foldr]

/-- Fields are encoded when they can be measured and then written into that much room. -/
theorem encodeAll_eq_ok_iff :
    encodeAll fields = .ok bytes ↔ ∃ declared after, sizes fields = .ok declared ∧
      writeAll fields declared (.ofSize declared.sum) = .ok () after ∧ after.buffer = bytes := by
  cases hsizes : sizes fields with
  | error error => simp [encodeAll, hsizes, bind, Except.bind]
  | ok declared => simp [encodeAll_of_sizes hsizes, fill_eq_ok_iff]

end Fill

/-- Filling a new buffer leaves nothing of it as it was. -/
theorem buffer_ofSize_append (bytes : Bytes) :
    ((Writer.ofSize bytes.length).append bytes).buffer = bytes := by
  simp [Writer.buffer_append, Writer.ofSize, Writer.ofBytes]

/-- What a sound codec makes of a value by itself is a layout of the value. -/
theorem lays_of_encoded {codec : ValueCodec} (hcodec : codec.Sound) {value : Value} {bytes : Bytes}
    (h : codec.encoded value = .ok bytes) : Lays ⟨codec, value⟩ bytes := by
  obtain ⟨encoding, hlawful, hsteady⟩ := hcodec
  obtain ⟨declared, after, hsizes, hwrite, hbuffer⟩ := encodeAll_eq_ok_iff.1 h
  have hsize : ∃ size, codec.sizeOf value = .ok size ∧ declared = [size] := by
    cases hsize : codec.sizeOf value with
    | error error => simp [sizes, hsize, bind, Except.bind] at hsizes
    | ok size =>
        have hdeclared : [size] = declared := by
          simpa [sizes, hsize, bind, Except.bind, pure, Except.pure] using hsizes
        exact ⟨size, rfl, hdeclared.symm⟩
  obtain ⟨size, hsize, rfl⟩ := hsize
  have hencode : codec.encode value (.ofSize size) = .ok () after := by
    obtain ⟨_, middle, hfirst, hrest⟩ := Action.bind_eq_ok_iff.1 hwrite
    cases hrest
    exact (write_eq_ok_iff.1 hfirst).1
  -- The size is that of the encoding, so the buffer holds the encoding and nothing else.
  obtain rfl : size = (encoding value).length := by
    have hsame := hsize.symm.trans (hlawful.sizeOf_eq hencode)
    simpa using hsame
  obtain rfl : encoding value = bytes := by
    rw [← hbuffer, (hlawful.appends hencode).after_eq, buffer_ofSize_append]
  exact ⟨hsize, fun writer hroom => hsteady writer hencode hroom, hlawful.decode_eq hencode⟩

theorem sizes_of_lays {fields : List Field} {pieces : List Bytes}
    (h : List.Forall₂ Lays fields pieces) : sizes fields = .ok (pieces.map List.length) := by
  induction h with
  | nil => rfl
  | cons hfield _ ih =>
      rw [sizes, hfield.sizeOf_eq, ih]
      rfl

theorem writeAll_of_lays {fields : List Field} {pieces : List Bytes}
    (h : List.Forall₂ Lays fields pieces) (writer : Writer)
    (hroom : pieces.flatten.length ≤ writer.remaining) :
    writeAll fields (pieces.map List.length) writer = .ok () (writer.append pieces.flatten) := by
  induction h generalizing writer with
  | nil =>
      rw [List.flatten_nil, Writer.append_nil]
      rfl
  | @cons field piece fields pieces hfield hrest ih =>
      -- The codec moves the writer by the length of the piece, which is what the field announced.
      rw [List.flatten_cons, List.length_append] at hroom
      have hwrite : field.write piece.length writer = .ok () (writer.append piece) := by
        refine write_eq_ok_iff.2 ⟨hfield.encode_eq writer (by omega), ?_⟩
        rw [Writer.position_append]
        omega
      have hrest := ih (writer.append piece) (by
        rw [Writer.remaining_append]
        omega)
      rw [List.flatten_cons, ← Writer.append_append]
      exact (Action.bind_of_ok hwrite).trans hrest

/-- Fields are laid out one behind the other, in as many bytes as they announced in all. -/
theorem encodeAll_of_lays {fields : List Field} {pieces : List Bytes}
    (h : List.Forall₂ Lays fields pieces) : encodeAll fields = .ok pieces.flatten := by
  have hsize : (pieces.map List.length).sum = pieces.flatten.length := by simp
  refine encodeAll_eq_ok_iff.2 ⟨_, _, sizes_of_lays h, ?_, buffer_ofSize_append pieces.flatten⟩
  rw [hsize]
  exact writeAll_of_lays h _ (Nat.le_of_eq (Writer.remaining_ofSize _).symm)

/-- The values of fields are read back in order. -/
theorem decodeAll_of_lays {fields : List Field} {pieces : List Bytes}
    (h : List.Forall₂ Lays fields pieces) (position : Nat) (tail : Bytes) :
    ValueCodec.decodeAll (fields.map Field.codec) ⟨position, pieces.flatten ++ tail⟩ =
      .ok (fields.map Field.value) ⟨position + pieces.flatten.length, tail⟩ := by
  induction h generalizing position with
  | nil => rfl
  | @cons field piece fields pieces hfield hrest ih =>
      rw [List.flatten_cons, List.append_assoc, List.length_append, ← Nat.add_assoc]
      refine (Action.bind_of_ok (hfield.decode_eq position (pieces.flatten ++ tail))).trans ?_
      exact Action.bind_of_ok (ih (position + piece.length))

end Field

end Switchboard
