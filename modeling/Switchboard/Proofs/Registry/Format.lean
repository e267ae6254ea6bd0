import Switchboard.Proofs.Codec.Canonical
import Switchboard.Proofs.Registry.Standard

/-!
# The standard format

A type is standard when it is built from the leaf types of the standard registry by lists.
`Value.standardEncoding` is the layout of the values of these types. The main results are
`Registry.standard_lawful`, which says that decoding undoes encoding in every standard type, and
`Registry.standard_canonical`, which says that encoding undoes decoding on everything that is
accepted.
-/

namespace Switchboard

/-- The standard types whose values are not lists, by their names, with the types of their values. -/
def TypeExpr.leafTypes : List (String × ValueType) :=
  [("u8", .u8), ("bool", .bool), ("i32", .i32), ("u32", .u32), ("i64", .i64), ("u64", .u64),
    ("f64", .f64), ("String", .string), ("bytes", .bytes)]

/-- The names of the standard types whose values are not lists. -/
def TypeExpr.leafNames : List String := leafTypes.map Prod.fst

/-- The leaf types, lists of leaf types, lists of such lists, and so on. -/
inductive TypeExpr.IsStandard : TypeExpr → Prop where
  | leaf (name : String) : name ∈ leafNames → IsStandard (.base name)
  | list (element : TypeExpr) : IsStandard element → IsStandard (.named "Vec" [element])

namespace Value

open Codec

mutual
/-- The bytes of a value of a standard type: words are little-endian, and whatever varies in length
has its length in front. Other values have no bytes. -/
def standardEncoding : Value → Bytes
  | u8 n => wordEncoding n
  | i32 n => wordEncoding n
  | u32 n => wordEncoding n
  | i64 n => wordEncoding n
  | u64 n => wordEncoding n
  | f64 bits => wordEncoding bits
  | bool b => boolEncoding b
  | string text => stringEncoding text
  | bytes data => bytesEncoding data
  | list items => Bytes.ofNat 4 items.length ++ standardEncodings items
  | u16 _ | pair _ _ | unit | record _ _ => []

/-- The bytes of values, one behind the other. -/
def standardEncodings : List Value → Bytes
  | [] => []
  | value :: values => standardEncoding value ++ standardEncodings values
end

theorem standardEncodings_eq_flatMap (values : List Value) :
    standardEncodings values = values.flatMap standardEncoding := by
  induction values with
  | nil => rfl
  | cons value values ih => rw [standardEncodings, ih, List.flatMap_cons]

end Value

/-- A list has the number of its elements in front of them. -/
theorem Value.standardEncoding_list (items : List Value) :
    standardEncoding (.list items) = Codec.listEncoding standardEncoding items := by
  rw [standardEncoding, standardEncodings_eq_flatMap, Codec.listEncoding]

namespace ValueCodec

/-- Reads one value of a buffer from `start` on. It comes with the position behind its bytes. -/
def decodeAt (codec : ValueCodec) (buffer : Bytes) (start : Nat) :
    Except CodecError (Value × Nat) := do
  let reader ← Reader.ofOffset buffer start
  match codec.decode reader with
  | .ok value after => pure (value, after.position)
  | .error error _ => throw error

theorem decodeAt_eq_ok_iff {codec : ValueCodec} {buffer : Bytes} {start stop : Nat}
    {value : Value} :
    codec.decodeAt buffer start = .ok (value, stop) ↔ start ≤ buffer.length ∧
      ∃ after, codec.decode ⟨start, buffer.drop start⟩ = .ok value after ∧
        after.position = stop := by
  unfold decodeAt Reader.ofOffset
  by_cases hstart : start ≤ buffer.length
  · rw [if_pos hstart]
    show (match codec.decode ⟨start, buffer.drop start⟩ with
      | .ok value after => pure (value, after.position)
      | .error error _ => throw error) = _ ↔ _
    cases hdecode : codec.decode ⟨start, buffer.drop start⟩ with
    | ok found after => simp [pure, Except.pure, hstart, eq_comm]
    | error error after => simp [throw, throwThe, MonadExceptOf.throw]
  · rw [if_neg hstart]
    exact ⟨nofun, fun h => absurd h.1 hstart⟩

/-- A value is read back from its bytes, whatever stands before and behind them. -/
theorem Lawful.decodeAt_eq {codec : ValueCodec} {encoding : Value → Bytes}
    (hcodec : codec.Lawful encoding) {value : Value} {writer after : Writer}
    (h : codec.encode value writer = .ok () after) (before tail : Bytes) :
    codec.decodeAt (before ++ encoding value ++ tail) before.length =
      .ok (value, before.length + (encoding value).length) := by
  have hdecode := hcodec.decode_eq h before.length tail
  have hrest : (before ++ encoding value ++ tail).drop before.length = encoding value ++ tail := by
    rw [List.append_assoc, List.drop_left]
  refine decodeAt_eq_ok_iff.2 ⟨?_, _, hrest ▸ hdecode, rfl⟩
  simp only [List.length_append]
  omega

/-- A canonical codec reads bytes of the buffer that are the ones it writes. -/
theorem Canonical.of_decodeAt {codec : ValueCodec} (hcodec : codec.Canonical) {buffer : Bytes}
    {start stop : Nat} {value : Value} (h : codec.decodeAt buffer start = .ok (value, stop)) :
    start ≤ stop ∧ stop ≤ buffer.length ∧
      codec.untyped.Writes value ((buffer.drop start).take (stop - start)) := by
  obtain ⟨hstart, after, hdecode, rfl⟩ := decodeAt_eq_ok_iff.1 h
  obtain ⟨bytes, hconsumes, hwrites⟩ := hcodec hdecode
  have hrest : buffer.drop start = bytes ++ after.rest := hconsumes.rest_eq
  have hposition : after.position = start + bytes.length := hconsumes.position_eq
  have hlength : buffer.length - start = bytes.length + after.rest.length := by
    rw [← List.length_drop, hrest, List.length_append]
  rw [hposition, hrest, Nat.add_sub_cancel_left, List.take_left]
  exact ⟨by omega, by omega, hwrites⟩

/-- A canonical codec reads a value from no other bytes. -/
theorem Canonical.bytes_unique {codec : ValueCodec} (hcodec : codec.Canonical)
    {buffer other : Bytes} {start stop first last : Nat} {value : Value}
    (h : codec.decodeAt buffer start = .ok (value, stop))
    (hother : codec.decodeAt other first = .ok (value, last)) :
    (other.drop first).take (last - first) = (buffer.drop start).take (stop - start) := by
  obtain ⟨-, -, hwrites⟩ := hcodec.of_decodeAt h
  obtain ⟨-, -, hotherWrites⟩ := hcodec.of_decodeAt hother
  exact hotherWrites.unique hwrites

end ValueCodec

namespace Codec

/-- A length that does not fit into four bytes is refused, and nothing is written. -/
theorem encodeLength_of_le {length : Nat} (h : 2 ^ 32 ≤ length) (writer : Writer) :
    encodeLength length writer = .error (.invalid (.lengthOverflow length)) writer := by
  have hsize : UInt32.size ≤ length := h
  rw [encodeLength, if_neg (Nat.not_lt_of_le hsize)]
  rfl

end Codec

namespace Registry

open Codec

theorem standardEntries_lawful :
    ∀ entry ∈ standardEntries, entry.2.Lawful Value.standardEncoding := by
  simp only [standardEntries, List.forall_mem_cons]
  exact ⟨erase_lawful_of_wrap word_lawful .u8 fun _ => rfl,
    erase_lawful_of_wrap bool_lawful .bool fun _ => rfl,
    erase_lawful_of_wrap word_lawful .i32 fun _ => rfl,
    erase_lawful_of_wrap word_lawful .u32 fun _ => rfl,
    erase_lawful_of_wrap word_lawful .i64 fun _ => rfl,
    erase_lawful_of_wrap word_lawful .u64 fun _ => rfl,
    erase_lawful_of_wrap word_lawful .f64 fun _ => rfl,
    erase_lawful_of_wrap string_lawful .string fun _ => rfl,
    erase_lawful_of_wrap bytes_lawful .bytes fun _ => rfl, List.forall_mem_nil _⟩

theorem standardEntries_canonical : ∀ entry ∈ standardEntries, entry.2.Canonical := by
  simp only [standardEntries, List.forall_mem_cons]
  exact ⟨erase_canonical word_canonical .u8, erase_canonical bool_canonical .bool,
    erase_canonical word_canonical .i32, erase_canonical word_canonical .u32,
    erase_canonical word_canonical .i64, erase_canonical word_canonical .u64,
    erase_canonical word_canonical .f64, erase_canonical string_canonical .string,
    erase_canonical bytes_canonical .bytes, List.forall_mem_nil _⟩

/-- The codec of every leaf type is the entry with its name. -/
theorem exists_entry_of_leaf {name : String} (h : name ∈ TypeExpr.leafNames) :
    ∃ entry ∈ standardEntries, entry.1 = name ∧
      (Catalog.of standardRegistrations).resolve (.base name) = .ok entry.2 := by
  have hentries : ∀ entry ∈ standardEntries,
      (Catalog.of standardRegistrations).resolve (.base entry.1) = .ok entry.2 := by
    simp only [standardEntries, List.forall_mem_cons]
    exact ⟨rfl, rfl, rfl, rfl, rfl, rfl, rfl, rfl, rfl, List.forall_mem_nil _⟩
  have hnames : TypeExpr.leafNames = standardEntries.map Prod.fst := rfl
  rw [hnames] at h
  obtain ⟨entry, hmem, rfl⟩ := List.mem_map.1 h
  exact ⟨entry, hmem, rfl, hentries entry hmem⟩

/-- The codec of a list type is the list codec over the codec of its elements. -/
theorem resolve_list {element : TypeExpr} {codec : ValueCodec}
    (h : (Catalog.of standardRegistrations).resolve element = .ok codec) :
    (Catalog.of standardRegistrations).resolve (.named "Vec" [element]) =
      .ok ((Codec.list codec).erase .list) := by
  have hentry : (Catalog.of standardRegistrations).entry (.named "Vec" [element]) = none := by
    simp [Catalog.of, standardRegistrations, standardEntries, Registration.codecFor]
  have hfactory : (Catalog.of standardRegistrations).factory "Vec" = some .list := rfl
  have helements : (Catalog.of standardRegistrations).resolveAll [element] = .ok [codec] := by
    rw [Catalog.resolveAll, h]
    rfl
  rw [Catalog.resolve, Catalog.entryOr, hentry, hfactory, helements]
  rfl

/-- Whatever holds of the leaf types with their codecs, and of a list type with its codec if it
holds of the type of the elements with theirs, holds of any standard type with the codec that a
standard registry has for it. -/
theorem exists_codecOf_of_cases (Property : TypeExpr → ValueCodec → Prop)
    (hentries : ∀ entry ∈ standardEntries, Property (.base entry.1) entry.2)
    (hlist : ∀ type element, Property type element →
      Property (.named "Vec" [type]) ((Codec.list element).erase .list))
    {steps : List Step} (hsteps : registered steps = []) {type : TypeExpr}
    (htype : type.IsStandard) :
    ∃ codec, (run (.registerStandard :: steps) empty).codecOf type = .ok codec ∧
      Property type codec := by
  rw [(run_standard_caches hsteps).codecOf_eq]
  induction htype with
  | leaf name hname =>
      obtain ⟨entry, hmem, rfl, hresolve⟩ := exists_entry_of_leaf hname
      exact ⟨entry.2, hresolve, hentries entry hmem⟩
  | list element _ ih =>
      obtain ⟨codec, hresolve, hcodec⟩ := ih
      exact ⟨_, resolve_list hresolve, hlist element codec hcodec⟩

/-- Whatever holds of the codecs of the leaf types, and of a list codec if it holds of the codec of
the elements, holds of the codec that a standard registry has for any standard type. -/
theorem exists_codecOf_of_isStandard {Property : ValueCodec → Prop}
    (hentries : ∀ entry ∈ standardEntries, Property entry.2)
    (hlist : ∀ element, Property element → Property ((Codec.list element).erase .list))
    {steps : List Step} (hsteps : registered steps = []) {type : TypeExpr}
    (htype : type.IsStandard) :
    ∃ codec, (run (.registerStandard :: steps) empty).codecOf type = .ok codec ∧
      Property codec :=
  exists_codecOf_of_cases (fun _ => Property) hentries (fun _ => hlist) hsteps htype

/-- Decoding undoes encoding. The leaf codecs are lawful, list codecs are if the codecs of their
elements are, and so are the codecs of all standard types, whose values are read back from any
place in a buffer. A length that does not fit into its word is refused. -/
theorem standard_lawful :
    (∀ entry ∈ standardEntries, entry.2.Lawful Value.standardEncoding) ∧
    (∀ (element : ValueCodec) (encoding : Value → Bytes), element.Lawful encoding →
      (Codec.list element).Lawful (listEncoding encoding)) ∧
    (∀ steps, registered steps = [] → ∀ type : TypeExpr, type.IsStandard →
      ∃ codec, (run (.registerStandard :: steps) empty).codecOf type = .ok codec ∧
        codec.Lawful Value.standardEncoding ∧
        ∀ (value : Value) (writer after : Writer), codec.encode value writer = .ok () after →
          ∀ before tail, codec.decodeAt (before ++ value.standardEncoding ++ tail) before.length =
            .ok (value, before.length + value.standardEncoding.length)) ∧
    ∀ (writer : Writer) (length : Nat), 2 ^ 32 ≤ length →
      (∀ data : Bytes, data.length = length →
        bytes.encode data writer = .error (.invalid (.lengthOverflow length)) writer) ∧
      (∀ text : String, (Utf8.encode text).length = length →
        string.encode text writer = .error (.invalid (.lengthOverflow length)) writer) ∧
      ∀ (element : ValueCodec) (items : List Value), items.length = length →
        (Codec.list element).encode items writer =
          .error (.invalid (.lengthOverflow length)) writer := by
  refine ⟨standardEntries_lawful, fun _ _ helement => list_lawful helement, ?_, ?_⟩
  · intro steps hsteps type htype
    have hlist : ∀ element : ValueCodec, element.Lawful Value.standardEncoding →
        ((Codec.list element).erase .list).Lawful Value.standardEncoding := fun _ helement =>
      erase_lawful_of_wrap (list_lawful helement) .list Value.standardEncoding_list
    obtain ⟨codec, hcodec, hlawful⟩ :=
      exists_codecOf_of_isStandard standardEntries_lawful hlist hsteps htype
    exact ⟨codec, hcodec, hlawful, fun value writer after h => hlawful.decodeAt_eq h⟩
  · intro writer length hlong
    have hrefused := encodeLength_of_le hlong writer
    refine ⟨?_, ?_, ?_⟩
    · rintro data rfl
      exact Action.bind_of_error hrefused
    · rintro text rfl
      exact Action.bind_of_error hrefused
    · rintro element items rfl
      exact Action.bind_of_error hrefused

/-- The codec of lists of lists of truth values. -/
def boolTableCodec : ValueCodec :=
  (Codec.list ((Codec.list (Codec.bool.erase .bool)).erase .list)).erase .list

theorem boolTable_isStandard : TypeExpr.IsStandard (.named "Vec" [.named "Vec" [.base "bool"]]) :=
  .list _ (.list _ (.leaf "bool" (by decide)))

/-- Lists of values without bytes are lawful, a table of truth values is read back from between
other bytes, and a string of bytes that is too long by one is refused. -/
theorem standard_lawful_table :
    (Codec.list (Codec.unit.erase .unit)).Lawful (listEncoding (erasedEncoding .unit fun _ => [])) ∧
    boolTableCodec.decodeAt ([7] ++ [2, 0, 0, 0, 2, 0, 0, 0, 1, 0, 0, 0, 0, 0] ++ [9, 9]) 1 =
      .ok (.list [.list [.bool true, .bool false], .list []], 15) ∧
    bytes.encode (List.replicate (2 ^ 32) 0) (.ofSize 8) =
      .error (.invalid (.lengthOverflow (2 ^ 32))) (.ofSize 8) := by
  have hunit : Codec.unit.Lawful fun _ => [] :=
    ⟨fun h => Writer.appends_nil_iff.2 (by cases h; rfl), fun _ => rfl, fun _ _ _ => rfl⟩
  obtain ⟨-, hlist, htypes, hlong⟩ := standard_lawful
  obtain ⟨hbytes, -⟩ := hlong (.ofSize 8) (2 ^ 32) (Nat.le_refl _)
  refine ⟨hlist _ _ (erase_lawful hunit .unit), ?_, hbytes _ List.length_replicate⟩
  obtain ⟨codec, hcodec, -, hread⟩ := htypes [] rfl _ boolTable_isStandard
  obtain rfl : boolTableCodec = codec := Except.ok.inj hcodec
  exact hread (.list [.list [.bool true, .bool false], .list []]) (.ofSize 14) _ rfl [7] [9, 9]

/-- Encoding undoes decoding. A list codec is canonical if the codec of its elements is, and so is
the codec of every standard type: what it reads between two positions of a buffer is what it writes
of the value, so it reads a value from no other bytes. -/
theorem standard_canonical :
    (∀ element : ValueCodec, element.Canonical → (Codec.list element).Canonical) ∧
    ∀ steps, registered steps = [] → ∀ type : TypeExpr, type.IsStandard →
      ∃ codec, (run (.registerStandard :: steps) empty).codecOf type = .ok codec ∧
        codec.Canonical ∧
        ∀ (buffer : Bytes) (start stop : Nat) (value : Value),
          codec.decodeAt buffer start = .ok (value, stop) →
            let read := (buffer.drop start).take (stop - start)
            start ≤ stop ∧ stop ≤ buffer.length ∧ codec.sizeOf value = .ok (stop - start) ∧
            (∀ writer : Writer, stop - start ≤ writer.remaining →
              codec.encode value writer = .ok () (writer.append read)) ∧
            ∀ (other : Bytes) (first last : Nat),
              codec.decodeAt other first = .ok (value, last) →
                (other.drop first).take (last - first) = read := by
  refine ⟨fun _ helement => list_canonical helement, ?_⟩
  intro steps hsteps type htype
  have hlist : ∀ element : ValueCodec, element.Canonical →
      ((Codec.list element).erase .list).Canonical := fun _ helement =>
    erase_canonical (list_canonical helement) .list
  obtain ⟨codec, hcodec, hcanonical⟩ :=
    exists_codecOf_of_isStandard standardEntries_canonical hlist hsteps htype
  refine ⟨codec, hcodec, hcanonical, ?_⟩
  intro buffer start stop value hread
  obtain ⟨hstart, hstop, hwrites⟩ := hcanonical.of_decodeAt hread
  have hlength : ((buffer.drop start).take (stop - start)).length = stop - start := by
    rw [List.length_take, List.length_drop]
    omega
  refine ⟨hstart, hstop, hlength ▸ hwrites.sizeOf_eq, ?_, ?_⟩
  · intro writer hroom
    exact hwrites.encode_eq writer (by omega)
  · intro other first last hother
    exact hcanonical.bytes_unique hread hother

/-- A table of truth values that was read from the middle of a buffer is written as the bytes that
it was read from. -/
theorem standard_canonical_table :
    (Codec.list (Codec.bool.erase .bool)).Canonical ∧
    boolTableCodec.decodeAt [7, 2, 0, 0, 0, 2, 0, 0, 0, 1, 0, 0, 0, 0, 0, 9] 1 =
      .ok (.list [.list [.bool true, .bool false], .list []], 15) ∧
    boolTableCodec.sizeOf (.list [.list [.bool true, .bool false], .list []]) = .ok 14 ∧
    ∀ writer : Writer, 14 ≤ writer.remaining →
      boolTableCodec.encode (.list [.list [.bool true, .bool false], .list []]) writer =
        .ok () (writer.append [2, 0, 0, 0, 2, 0, 0, 0, 1, 0, 0, 0, 0, 0]) := by
  obtain ⟨hlist, htypes⟩ := standard_canonical
  obtain ⟨codec, hcodec, -, hread⟩ := htypes [] rfl _ boolTable_isStandard
  obtain rfl : boolTableCodec = codec := Except.ok.inj hcodec
  have hdecode : boolTableCodec.decodeAt [7, 2, 0, 0, 0, 2, 0, 0, 0, 1, 0, 0, 0, 0, 0, 9] 1 =
      .ok (.list [.list [.bool true, .bool false], .list []], 15) := rfl
  obtain ⟨-, -, hsize, hencode, -⟩ := hread _ _ _ _ hdecode
  exact ⟨hlist _ (erase_canonical bool_canonical .bool), hdecode, hsize, hencode⟩

end Registry

end Switchboard
