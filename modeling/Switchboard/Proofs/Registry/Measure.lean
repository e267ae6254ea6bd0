import Switchboard.Proofs.Registry.Format
import Switchboard.Proofs.Response.Script

/-!
# Measuring and writing

`TypeExpr.places` lists the places of a value at which a standard type expects something, each
before what is below it and from left to right. The main result,
`Registry.sizeOf_predicts_encode`, says that a value is measured when there is what is expected in
all of these places, that otherwise the first wrong place is reported, and that writing it comes to
the same, unless the room runs out before.
-/

namespace Switchboard

/-- A place in a value: the type that is expected there, and the type of what is found. -/
structure Place where
  expected : ValueType
  found : ValueType
  deriving DecidableEq

namespace Place

/-- What is expected in the first place where something else is found. -/
def firstMismatch (places : List Place) : Option ValueType :=
  (places.find? fun place => place.found ≠ place.expected).map expected

/-- The result `a` for places without a mismatch, and the first mismatch for others. -/
def judge {α : Type} (places : List Place) (a : α) : Except CodecError α :=
  match firstMismatch places with
  | none => .ok a
  | some expected => .error (.typeMismatch expected)

end Place

/-- The elements of a list, and nothing for any other value. -/
def Value.items : Value → List Value
  | list items => items
  | _ => []

namespace TypeExpr

/-- `type.places value` are the places of `value` at which the standard type `type` expects
something. -/
def places : TypeExpr → Value → List Place
  | .named "Vec" [element], value =>
      ⟨.list, value.type⟩ :: value.items.flatMap fun item => places element item
  | .named name [], value =>
      ((leafTypes.lookup name).map fun expected => ⟨expected, value.type⟩).toList
  | _, _ => []

/-- There is what is expected in every place of the value. -/
def Admits (type : TypeExpr) (value : Value) : Prop :=
  ∀ place ∈ type.places value, place.found = place.expected

instance (type : TypeExpr) (value : Value) : Decidable (type.Admits value) :=
  inferInstanceAs (Decidable (∀ _ ∈ _, _))

end TypeExpr

namespace Value

mutual
/-- The lengths that stand in front of something in a value: those of lists, texts and strings of
bytes, at every depth. -/
def lengths : Value → List Nat
  | string text => [(Utf8.encode text).length]
  | bytes data => [data.length]
  | list items => items.length :: lengthsAll items
  | _ => []

/-- The lengths in the values of a list. -/
def lengthsAll : List Value → List Nat
  | [] => []
  | value :: values => lengths value ++ lengthsAll values
end

/-- All lengths in the value fit into their words. -/
def Fits (value : Value) : Prop := ∀ length ∈ value.lengths, length < 2 ^ 32

instance (value : Value) : Decidable value.Fits := inferInstanceAs (Decidable (∀ _ ∈ _, _))

theorem fits_list_iff {items : List Value} :
    (list items).Fits ↔ items.length < 2 ^ 32 ∧ ∀ item ∈ items, item.Fits := by
  have hall : ∀ items : List Value,
      (∀ length ∈ lengthsAll items, length < 2 ^ 32) ↔ ∀ item ∈ items, item.Fits := by
    intro items
    induction items with
    | nil => exact ⟨fun _ => nofun, fun _ => nofun⟩
    | cons item items ih => rw [lengthsAll, List.forall_mem_append, ih, List.forall_mem_cons, Fits]
  rw [Fits, lengths, List.forall_mem_cons, hall]

end Value

namespace Place

variable {places others : List Place}

theorem firstMismatch_append :
    firstMismatch (places ++ others) = (firstMismatch places).or (firstMismatch others) := by
  simp [firstMismatch, List.find?_append, Option.map_or]

theorem firstMismatch_eq_none_iff :
    firstMismatch places = none ↔ ∀ place ∈ places, place.found = place.expected := by
  simp [firstMismatch]

theorem firstMismatch_cons_of_eq {place : Place} (h : place.found = place.expected) :
    firstMismatch (place :: places) = firstMismatch places := by
  simp [firstMismatch, h]

theorem firstMismatch_cons_of_ne {place : Place} (h : place.found ≠ place.expected) :
    firstMismatch (place :: places) = some place.expected := by
  simp [firstMismatch, h]

theorem judge_eq_ok_iff {α : Type} {a b : α} :
    judge places a = .ok b ↔ firstMismatch places = none ∧ a = b := by
  unfold judge
  cases firstMismatch places <;> simp

theorem judge_eq_error_iff {α : Type} {a : α} {error : CodecError} :
    judge places a = .error error ↔
      ∃ expected, firstMismatch places = some expected ∧ error = .typeMismatch expected := by
  unfold judge
  cases firstMismatch places <;> simp [eq_comm]

/-- Two results in turn, the first with its places in front of those of the second. -/
theorem judge_append {a b : Nat} :
    judge (places ++ others) (a + b) = do return (← judge places a) + (← judge others b) := by
  unfold judge
  rw [firstMismatch_append]
  cases firstMismatch places with
  | some expected => rfl
  | none => cases firstMismatch others <;> rfl

end Place

/-- `script.LaysOut mismatch bytes` says that the script puts `bytes` and succeeds, or, if there is
a mismatch, puts them up to some point and fails with it. -/
structure Script.LaysOut (script : Script) (mismatch : Option ValueType) (bytes : Bytes) : Prop where
  failure_eq : script.failure = mismatch.map .typeMismatch
  front : script.bytes <+: bytes
  whole : mismatch = none → script.bytes = bytes

namespace Script.LaysOut

variable {first second : Script} {mismatch other : Option ValueType} {bytes more : Bytes}

theorem andThen (h : first.LaysOut mismatch bytes) (hmore : second.LaysOut other more) :
    (first.andThen second).LaysOut (mismatch.or other) (bytes ++ more) := by
  have hfailure := h.failure_eq
  cases mismatch with
  | some expected =>
      have hfirst : first.andThen second = first := by
        rw [Script.andThen, hfailure]
        rfl
      rw [hfirst]
      refine ⟨hfailure, h.front.trans (List.prefix_append _ _), ?_⟩
      simp
  | none =>
      have hboth : first.andThen second = ⟨first.puts ++ second.puts, second.failure⟩ := by
        rw [Script.andThen, hfailure]
        rfl
      have hbytes : (first.andThen second).bytes = bytes ++ second.bytes := by
        rw [hboth, ← h.whole rfl, Script.bytes, List.flatten_append]
        rfl
      refine ⟨?_, ?_, ?_⟩
      · rw [hboth]
        exact hmore.failure_eq
      · rw [hbytes]
        exact (List.prefix_append_right_inj _).2 hmore.front
      · intro hnone
        rw [hbytes, hmore.whole hnone]

/-- Puts that all succeed. -/
theorem of_puts {puts : List Bytes} (h : puts.flatten = bytes) :
    Script.LaysOut ⟨puts, none⟩ none bytes :=
  ⟨rfl, h ▸ List.prefix_refl _, fun _ => h⟩

end Script.LaysOut

/-- `codec.Predicts places` says that `codec` measures a value if `places` has no mismatch for it,
as long as its standard encoding, and reports the first mismatch otherwise, and that writing a value
whose lengths fit follows a script that comes to the same. -/
structure ValueCodec.Predicts (codec : ValueCodec) (places : Value → List Place) : Prop where
  sizeOf_eq (value : Value) :
    codec.sizeOf value = Place.judge (places value) value.standardEncoding.length
  exists_script {value : Value} : value.Fits →
    ∃ script : Script, codec.encode value = script.run ∧
      script.LaysOut (Place.firstMismatch (places value)) value.standardEncoding

/-- An embedding that shows an `α` in every value of its type. -/
def Embedding.Full {α : Type} (embedding : Embedding α) : Prop :=
  ∀ value : Value, value.type = embedding.type → ∃ a, value = embedding.wrap a

namespace Codec

variable {α : Type} {codec : Codec α} {embedding : Embedding α}

/-- What an erased codec does with a value of another type. -/
theorem erase_of_type_ne {value : Value} (h : value.type ≠ embedding.type) :
    (codec.erase embedding).sizeOf value = .error (.typeMismatch embedding.type) ∧
      (codec.erase embedding).encode value = Script.run ⟨[], some (.typeMismatch embedding.type)⟩ := by
  have hexpect : expect embedding value = .error (.typeMismatch embedding.type) := by
    rw [expect, embedding.unwrap?_eq_none h]
  simp only [erase, hexpect]
  exact ⟨rfl, rfl⟩

/-- An erased codec predicts what it does if the typed codec does so for the values of its type, and
it reports the type before whatever is wrong inside. -/
theorem erase_predicts (hfull : embedding.Full) (below : Value → List Place)
    (hsize : ∀ a, codec.sizeOf a =
      Place.judge (below (embedding.wrap a)) (embedding.wrap a).standardEncoding.length)
    (hencode : ∀ a, (embedding.wrap a).Fits → ∃ script : Script, codec.encode a = script.run ∧
      script.LaysOut (Place.firstMismatch (below (embedding.wrap a)))
        (embedding.wrap a).standardEncoding) :
    (codec.erase embedding).Predicts fun value => ⟨embedding.type, value.type⟩ :: below value where
  sizeOf_eq value := by
    by_cases htype : value.type = embedding.type
    · obtain ⟨a, rfl⟩ := hfull value htype
      rw [erase_sizeOf_wrap, hsize, Place.judge, Place.judge, Place.firstMismatch_cons_of_eq htype]
    · rw [(erase_of_type_ne htype).1, Place.judge, Place.firstMismatch_cons_of_ne htype]
  exists_script {value} hfits := by
    by_cases htype : value.type = embedding.type
    · obtain ⟨a, rfl⟩ := hfull value htype
      rw [erase_encode_wrap, Place.firstMismatch_cons_of_eq htype]
      exact hencode a hfits
    · rw [Place.firstMismatch_cons_of_ne htype]
      exact ⟨_, (erase_of_type_ne htype).2, rfl, List.nil_prefix, nofun⟩

/-- A leaf codec predicts what it does if it measures every value, and puts it as a whole when its
lengths fit. -/
theorem erase_predicts_of_puts (hfull : embedding.Full)
    (hsize : ∀ a, codec.sizeOf a = .ok (embedding.wrap a).standardEncoding.length)
    (hencode : ∀ a, (embedding.wrap a).Fits → ∃ puts : List Bytes,
      codec.encode a = Script.run ⟨puts, none⟩ ∧
        puts.flatten = (embedding.wrap a).standardEncoding) :
    (codec.erase embedding).Predicts fun value => [⟨embedding.type, value.type⟩] :=
  erase_predicts hfull (fun _ => []) hsize fun a hfits => by
    obtain ⟨puts, hputs, hbytes⟩ := hencode a hfits
    exact ⟨_, hputs, .of_puts hbytes⟩

/-- A single put is a script. -/
theorem put_eq_run (bytes : Bytes) : Writer.put bytes = Script.run ⟨[bytes], none⟩ := by
  simp [Script.run, Script.putAll]

theorem encodeLength_of_lt {length : Nat} (h : length < 2 ^ 32) :
    encodeLength length = Writer.put (Bytes.ofNat 4 length) := by
  have hlength : Word.toNat (UInt32.ofNat length) = length := Word.toNat_ofNat h
  have hsize : length < UInt32.size := h
  rw [encodeLength, if_pos hsize]
  show Writer.put (Bytes.ofNat 4 (Word.toNat (UInt32.ofNat length))) = _
  rw [hlength]

theorem bytes_eq_run {data : Bytes} (h : data.length < 2 ^ 32) :
    bytes.encode data = Script.run ⟨[Bytes.ofNat 4 data.length, data], none⟩ := by
  show (encodeLength data.length >>= fun _ => Writer.put data) = _
  rw [encodeLength_of_lt h]
  simp [Script.run, Script.putAll]

theorem word_predicts [Word α] (hfull : embedding.Full)
    (hencoding : ∀ a, (embedding.wrap a).standardEncoding = wordEncoding a) :
    ((word α).erase embedding).Predicts fun value => [⟨embedding.type, value.type⟩] := by
  refine erase_predicts_of_puts hfull (fun a => ?_) fun a _ => ⟨[wordEncoding a], ?_, ?_⟩
  · rw [hencoding, wordEncoding, Bytes.length_ofNat]
    rfl
  · exact put_eq_run _
  · rw [hencoding, List.flatten_singleton]

theorem bool_predicts :
    (bool.erase .bool).Predicts fun value => [⟨.bool, value.type⟩] := by
  refine erase_predicts_of_puts ?_ (fun _ => rfl) fun b _ => ⟨[boolEncoding b], put_eq_run _, ?_⟩
  · intro value h
    cases value <;> simp_all [Value.type, Embedding.bool]
  · exact List.flatten_singleton

theorem bytes_predicts :
    (bytes.erase .bytes).Predicts fun value => [⟨.bytes, value.type⟩] := by
  refine erase_predicts_of_puts ?_ (fun data => ?_) fun data hfits => ?_
  · intro value h
    cases value <;> simp_all [Value.type, Embedding.bytes]
  · show Except.ok (4 + data.length) = Except.ok (bytesEncoding data).length
    rw [bytesEncoding, List.length_append, Bytes.length_ofNat]
  · refine ⟨_, bytes_eq_run (hfits _ (List.mem_singleton_self _)), ?_⟩
    rw [List.flatten_cons, List.flatten_singleton]
    rfl

theorem string_predicts :
    (string.erase .string).Predicts fun value => [⟨.string, value.type⟩] := by
  refine erase_predicts_of_puts ?_ (fun text => ?_) fun text hfits => ?_
  · intro value h
    cases value <;> simp_all [Value.type, Embedding.string]
  · show Except.ok (4 + (Utf8.encode text).length) = Except.ok (bytesEncoding _).length
    rw [bytesEncoding, List.length_append, Bytes.length_ofNat]
  · refine ⟨_, bytes_eq_run (hfits _ (List.mem_singleton_self _)), ?_⟩
    rw [List.flatten_cons, List.flatten_singleton]
    rfl

section List

variable {element : ValueCodec} {places : Value → List Place}

/-- The elements of a list are measured one by one, up to the first with a mismatch. -/
theorem sizeOfItems_eq (helement : element.Predicts places) (items : List Value) :
    sizeOfItems element items =
      Place.judge (items.flatMap places) (items.flatMap Value.standardEncoding).length := by
  induction items with
  | nil => rfl
  | cons item items ih =>
      rw [sizeOfItems, helement.sizeOf_eq, ih, List.flatMap_cons, List.flatMap_cons,
        List.length_append, Place.judge_append]

/-- They are written one behind the other, up to the first mismatch. -/
theorem exists_script_of_items (helement : element.Predicts places) {items : List Value}
    (hfits : ∀ item ∈ items, item.Fits) :
    ∃ script : Script, encodeItems element items = script.run ∧
      script.LaysOut (Place.firstMismatch (items.flatMap places))
        (items.flatMap Value.standardEncoding) := by
  induction items with
  | nil => exact ⟨⟨[], none⟩, rfl, .of_puts rfl⟩
  | cons item items ih =>
      obtain ⟨hitem, hitems⟩ := List.forall_mem_cons.1 hfits
      obtain ⟨first, hfirst, hlays⟩ := helement.exists_script hitem
      obtain ⟨second, hsecond, hrest⟩ := ih hitems
      refine ⟨first.andThen second, ?_, ?_⟩
      · rw [encodeItems, hfirst, hsecond, Script.run_andThen]
      · rw [List.flatMap_cons, List.flatMap_cons, Place.firstMismatch_append]
        exact hlays.andThen hrest

theorem list_predicts (helement : element.Predicts places) :
    ((list element).erase .list).Predicts fun value =>
      ⟨.list, value.type⟩ :: value.items.flatMap places := by
  refine erase_predicts ?_ (fun value => value.items.flatMap places) ?_ ?_
  · intro value h
    cases value <;> simp_all [Value.type, Embedding.list]
  · intro items
    show (do return 4 + (← sizeOfItems element items)) =
      Place.judge (items.flatMap places) (Value.list items).standardEncoding.length
    rw [sizeOfItems_eq helement, Value.standardEncoding_list, listEncoding, List.length_append,
      Bytes.length_ofNat, Place.judge, Place.judge]
    cases Place.firstMismatch (items.flatMap places) <;> rfl
  · intro items hfits
    obtain ⟨hlength, hitems⟩ := Value.fits_list_iff.1 hfits
    obtain ⟨script, hscript, hlays⟩ := exists_script_of_items helement hitems
    refine ⟨Script.andThen ⟨[Bytes.ofNat 4 items.length], none⟩ script, ?_, ?_⟩
    · show (encodeLength items.length >>= fun _ => encodeItems element items) = _
      rw [encodeLength_of_lt hlength, hscript, Script.run_andThen, put_eq_run]
    · show Script.LaysOut _ (Place.firstMismatch (items.flatMap places))
        (Value.list items).standardEncoding
      rw [Value.standardEncoding_list]
      exact (Script.LaysOut.of_puts List.flatten_singleton).andThen hlays

end List

end Codec

/-- `writer.Writes count after` says that `after` comes of `writer` by writing `count` bytes inside
the buffer, and that nothing before them and behind them has changed. -/
structure Writer.Writes (writer : Writer) (count : Nat) (after : Writer) : Prop where
  position_eq : after.position = writer.position + count
  inside : after.position ≤ writer.buffer.length
  length_eq : after.buffer.length = writer.buffer.length
  before_eq : after.buffer.take writer.position = writer.buffer.take writer.position
  behind_eq : after.buffer.drop after.position = writer.buffer.drop after.position

theorem Writer.writes_append {writer : Writer} {bytes : Bytes}
    (h : bytes.length ≤ writer.remaining) : writer.Writes bytes.length (writer.append bytes) := by
  have hposition := writer.position_append bytes
  have hremaining := writer.remaining_append bytes
  have hlength := writer.length_buffer
  refine ⟨hposition, by omega, by rw [length_buffer]; omega, ?_, ?_⟩
  · rw [buffer_append, take_position, List.append_assoc]
    exact List.take_left' Array.length_toList
  · rw [drop_position, hposition, ← List.drop_drop, drop_position]
    rfl

/-- `codec.Overruns value writer` says that writing `value` fails for want of room: some bytes are
written, and the next ones are more than there is room for behind them. -/
def ValueCodec.Overruns (codec : ValueCodec) (value : Value) (writer : Writer) : Prop :=
  ∃ count needed after,
    codec.encode value writer =
      .error (.bufferOverrun needed (writer.remaining - count)) after ∧
      writer.Writes count after ∧ writer.remaining < count + needed

/-- A script that puts more bytes than there is room for overruns. -/
theorem ValueCodec.overruns_of_lt {codec : ValueCodec} {value : Value} {script : Script}
    (h : codec.encode value = script.run) {writer : Writer}
    (hroom : writer.remaining < script.bytes.length) : codec.Overruns value writer := by
  obtain ⟨before, put, after, hputs, hbefore, hput⟩ := Script.exists_overrun _ _ hroom
  have hrun := Script.putAll_of_lt before after put writer hbefore hput
  rw [← hputs] at hrun
  refine ⟨before.flatten.length, put.length, _, ?_, Writer.writes_append hbefore, hput⟩
  rw [h]
  exact Action.bind_of_error hrun

namespace Registry

open Codec

theorem standardEntries_predict :
    ∀ entry ∈ standardEntries, entry.2.Predicts (TypeExpr.places (.base entry.1)) := by
  simp only [standardEntries, List.forall_mem_cons]
  refine ⟨word_predicts ?_ fun _ => rfl, bool_predicts, word_predicts ?_ fun _ => rfl,
    word_predicts ?_ fun _ => rfl, word_predicts ?_ fun _ => rfl, word_predicts ?_ fun _ => rfl,
    word_predicts ?_ fun _ => rfl, string_predicts, bytes_predicts, List.forall_mem_nil _⟩
  all_goals
    intro value h
    cases value <;> simp_all [Value.type, Embedding.u8, Embedding.i32, Embedding.u32,
      Embedding.i64, Embedding.u64, Embedding.f64]

/-- What is measured is written in as many bytes, and what is not is not written. A value of a
standard type is measured when there is what is expected in all of its places, and otherwise what is
expected in the first wrong place is reported. A value whose lengths fit and that is measured is
written wherever there is room for its size, in exactly as many bytes, and overruns wherever there
is less; one that is not is written up to the first wrong place and fails in the same way, unless it
overruns before. Nothing else in the buffer changes, however it ends. -/
theorem sizeOf_predicts_encode (steps : List Step) (hsteps : registered steps = [])
    (type : TypeExpr) (htype : type.IsStandard) :
    ∃ codec, (run (.registerStandard :: steps) empty).codecOf type = .ok codec ∧
      ∀ value : Value,
        ((∃ size, codec.sizeOf value = .ok size) ↔ type.Admits value) ∧
        (∀ error, codec.sizeOf value = .error error ↔
          ∃ expected, Place.firstMismatch (type.places value) = some expected ∧
            error = .typeMismatch expected) ∧
        (value.Fits → ∀ size, codec.sizeOf value = .ok size → ∀ writer : Writer,
          (size ≤ writer.remaining → ∃ after, codec.encode value writer = .ok () after ∧
            writer.Writes size after) ∧
          (writer.remaining < size → codec.Overruns value writer)) ∧
        (value.Fits → ∀ error, codec.sizeOf value = .error error →
          ∃ front, front ≤ value.standardEncoding.length ∧ ∀ writer : Writer,
            (front ≤ writer.remaining → ∃ after, codec.encode value writer = .error error after ∧
              writer.Writes front after) ∧
            (writer.remaining < front → codec.Overruns value writer)) := by
  obtain ⟨codec, hcodec, hpredicts⟩ := exists_codecOf_of_cases
    (fun type codec => codec.Predicts type.places) standardEntries_predict
    (fun _ _ => list_predicts) hsteps htype
  refine ⟨codec, hcodec, ?_⟩
  intro value
  rw [hpredicts.sizeOf_eq value]
  refine ⟨?_, fun _ => Place.judge_eq_error_iff, ?_, ?_⟩
  · simp [Place.judge_eq_ok_iff, Place.firstMismatch_eq_none_iff, TypeExpr.Admits]
  · intro hfits size hsize writer
    obtain ⟨script, hscript, hlays⟩ := hpredicts.exists_script hfits
    obtain ⟨hnone, rfl⟩ := Place.judge_eq_ok_iff.1 hsize
    rw [hnone] at hlays
    have hbytes : script.bytes = value.standardEncoding := hlays.whole rfl
    rw [← hbytes]
    refine ⟨?_, ValueCodec.overruns_of_lt hscript⟩
    intro hroom
    refine ⟨_, ?_, Writer.writes_append hroom⟩
    rw [hscript, Script.run_of_le hroom, hlays.failure_eq]
    rfl
  · intro hfits error herror
    obtain ⟨script, hscript, hlays⟩ := hpredicts.exists_script hfits
    obtain ⟨expected, hmismatch, rfl⟩ := Place.judge_eq_error_iff.1 herror
    rw [hmismatch] at hlays
    refine ⟨script.bytes.length, hlays.front.length_le, ?_⟩
    intro writer
    refine ⟨?_, ValueCodec.overruns_of_lt hscript⟩
    intro hroom
    refine ⟨_, ?_, Writer.writes_append hroom⟩
    rw [hscript, Script.run_of_le hroom, hlays.failure_eq]
    rfl

/-- A table of truth values in which a number took the place of one, and a text that of a row. -/
def spoiledTable : Value :=
  .list [.list [.bool true, .u8 7, .bool false], .string "row"]

/-- A table of truth values is not written in one byte less than it measures. Of the spoiled table
the number is reported, which comes first, when the table is measured, and also when it is written,
as soon as there is room for what stands in front of the number. -/
theorem sizeOf_predicts_encode_table :
    (∃ size, boolTableCodec.sizeOf (.list [.list [.bool true, .bool false], .list []]) = .ok size) ∧
    boolTableCodec.Overruns (.list [.list [.bool true, .bool false], .list []]) (.ofSize 13) ∧
    boolTableCodec.sizeOf spoiledTable = .error (.typeMismatch .bool) ∧
    ∃ front, front ≤ spoiledTable.standardEncoding.length ∧ ∀ writer : Writer,
      (front ≤ writer.remaining → ∃ after,
        boolTableCodec.encode spoiledTable writer = .error (.typeMismatch .bool) after ∧
          writer.Writes front after) ∧
      (writer.remaining < front → boolTableCodec.Overruns spoiledTable writer) := by
  obtain ⟨codec, hcodec, hvalues⟩ := sizeOf_predicts_encode [] rfl _ boolTable_isStandard
  obtain rfl : boolTableCodec = codec := Except.ok.inj hcodec
  obtain ⟨hmeasured, -, hwritten, -⟩ := hvalues (.list [.list [.bool true, .bool false], .list []])
  obtain ⟨-, hmismatch, -, hspoiled⟩ := hvalues spoiledTable
  have herror : boolTableCodec.sizeOf spoiledTable = .error (.typeMismatch .bool) :=
    (hmismatch _).2 ⟨.bool, by decide, rfl⟩
  refine ⟨hmeasured.2 (by decide), (hwritten (by decide) 14 rfl (.ofSize 13)).2 (by decide),
    herror, hspoiled ?_ _ herror⟩
  decide

end Registry

end Switchboard
