import Switchboard.Proofs.Registry.Measure

/-!
# How much comes out of a decoder

`Value.partsAt` lists the values in a value, itself and the elements of lists at every depth, each
with the position at which its bytes begin. The main result, `Registry.decoded_parts_bounded`, says
that there are no more values in what is decoded, together with the bytes of its texts and strings
of bytes, than bytes were read, and that every list has at least as many bytes behind its length as
it has elements.
-/

namespace Switchboard

namespace Value

/-- The number of bytes of a text or a string of bytes. Other values have none of their own. -/
def contentLength : Value → Nat
  | string text => (Utf8.encode text).length
  | bytes data => data.length
  | _ => 0

mutual
/-- The values in a value whose bytes begin at `start`: itself, and those in the elements of a list.
Each of them comes with the position of its own bytes. -/
def partsAt (start : Nat) : Value → List (Nat × Value)
  | list items => (start, list items) :: partsOfItems (start + 4) items
  | value => [(start, value)]

/-- The values in values whose bytes lie one behind the other. -/
def partsOfItems (start : Nat) : List Value → List (Nat × Value)
  | [] => []
  | item :: items =>
    partsAt start item ++ partsOfItems (start + item.standardEncoding.length) items
end

/-- The number of parts together with the bytes of the texts and of the strings of bytes among
them. -/
def weight (parts : List (Nat × Value)) : Nat :=
  parts.length + (parts.map fun part => part.2.contentLength).sum

theorem weight_append (parts others : List (Nat × Value)) :
    weight (parts ++ others) = weight parts + weight others := by
  simp only [weight, List.length_append, List.map_append, List.sum_append]
  omega

/-- `Bounds bytes start parts` says that the parts weigh no more than the bytes, which begin at
`start`, and that each list among the parts has its length in front, at its own position, and behind
it at least as many bytes as it has elements. -/
structure Bounds (bytes : Bytes) (start : Nat) (parts : List (Nat × Value)) : Prop where
  weight_le : weight parts ≤ bytes.length
  lists {position : Nat} {items : List Value} : (position, list items) ∈ parts →
    ∃ before behind, bytes = before ++ Bytes.ofNat 4 items.length ++ behind ∧
      position = start + before.length ∧ items.length ≤ behind.length

namespace Bounds

variable {bytes more : Bytes} {start : Nat} {parts others : List (Nat × Value)}

theorem nil (start : Nat) : Bounds [] start [] := ⟨Nat.le_refl _, nofun⟩

theorem append (h : Bounds bytes start parts) (hmore : Bounds more (start + bytes.length) others) :
    Bounds (bytes ++ more) start (parts ++ others) where
  weight_le := by
    have hleft := h.weight_le
    have hright := hmore.weight_le
    rw [weight_append, List.length_append]
    omega
  lists {position items} hmem := by
    rcases List.mem_append.1 hmem with hleft | hright
    · obtain ⟨before, behind, rfl, hposition, hlength⟩ := h.lists hleft
      refine ⟨before, behind ++ more, by simp, hposition, ?_⟩
      rw [List.length_append]
      omega
    · obtain ⟨before, behind, rfl, rfl, hlength⟩ := hmore.lists hright
      refine ⟨bytes ++ before, behind, by simp, ?_, hlength⟩
      rw [List.length_append, Nat.add_assoc]

/-- A value that is no list weighs one more than its content. -/
theorem leaf {value : Value} (hleaf : value.type ≠ .list)
    (hlength : value.contentLength < bytes.length) : Bounds bytes start [(start, value)] where
  weight_le := by simp [weight]; omega
  lists {position items} hmem := by
    obtain ⟨-, rfl⟩ : position = start ∧ list items = value := by simpa using hmem
    exact absurd rfl hleaf

/-- A list has its length in front of its elements, of which there are no more than they have
bytes. -/
theorem list {items : List Value} (hcount : items.length ≤ parts.length)
    (h : Bounds bytes (start + 4) parts) :
    Bounds (Bytes.ofNat 4 items.length ++ bytes) start ((start, .list items) :: parts) where
  weight_le := by
    have hweight := h.weight_le
    simp only [weight, List.length_cons, List.map_cons, List.sum_cons, contentLength,
      List.length_append, Bytes.length_ofNat] at hweight ⊢
    omega
  lists {position inner} hmem := by
    rcases List.mem_cons.1 hmem with hself | hbelow
    · obtain ⟨rfl, rfl⟩ : position = start ∧ inner = items := by simpa using hself
      have hweight := h.weight_le
      rw [weight] at hweight
      exact ⟨[], bytes, rfl, rfl, by omega⟩
    · obtain ⟨before, behind, rfl, rfl, hlength⟩ := h.lists hbelow
      refine ⟨Bytes.ofNat 4 items.length ++ before, behind, by simp, ?_, hlength⟩
      rw [List.length_append, Bytes.length_ofNat, Nat.add_assoc]

end Bounds

/-- There is at least one part for each of the values. -/
theorem length_le_partsOfItems (start : Nat) (items : List Value) :
    items.length ≤ (partsOfItems start items).length := by
  induction items generalizing start with
  | nil => exact Nat.le_refl _
  | cons item items ih =>
      have hrest := ih (start + item.standardEncoding.length)
      have hfirst : 0 < (partsAt start item).length := by
        cases item <;> simp [partsAt]
      simp only [partsOfItems, List.length_append, List.length_cons]
      omega

theorem partsOfItems_bounds {items : List Value}
    (h : ∀ item ∈ items, ∀ start, Bounds item.standardEncoding start (item.partsAt start))
    (start : Nat) :
    Bounds (items.flatMap standardEncoding) start (partsOfItems start items) := by
  induction items generalizing start with
  | nil => exact .nil start
  | cons item items ih =>
      obtain ⟨hitem, hitems⟩ := List.forall_mem_cons.1 h
      rw [List.flatMap_cons, partsOfItems]
      exact (hitem start).append (ih hitems _)

/-- The parts of a value with the type of a leaf are the value alone. -/
theorem bounds_of_leaf {value : Value} (h : value.type ∈ TypeExpr.leafTypes.map Prod.snd)
    (start : Nat) : Bounds value.standardEncoding start (value.partsAt start) := by
  have hleaf : value.type ≠ .list := by
    intro hlist
    rw [hlist] at h
    revert h
    decide
  have hparts : value.partsAt start = [(start, value)] := by
    cases value with
    | list items => exact absurd rfl hleaf
    | _ => rfl
  have hlength : value.contentLength < value.standardEncoding.length := by
    cases value with
    | string text =>
        simp [contentLength, standardEncoding, Codec.stringEncoding, Codec.bytesEncoding]
    | bytes data => simp [contentLength, standardEncoding, Codec.bytesEncoding]
    | list items => exact absurd rfl hleaf
    | u16 _ | pair _ _ | unit | record _ _ => simp [type, TypeExpr.leafTypes] at h
    | _ => exact Nat.succ_pos _
  rw [hparts]
  exact .leaf hleaf hlength

end Value

namespace TypeExpr

theorem type_of_admits_leaf {name : String} (hname : name ∈ leafNames) {value : Value}
    (h : (base name).Admits value) : value.type ∈ leafTypes.map Prod.snd := by
  have hentries : ∀ entry ∈ leafTypes, (base entry.1).Admits value → value.type = entry.2 := by
    simp only [leafTypes, List.forall_mem_cons]
    refine ⟨?_, ?_, ?_, ?_, ?_, ?_, ?_, ?_, ?_, List.forall_mem_nil _⟩
    all_goals exact fun hadmits => hadmits _ (List.mem_singleton_self _)
  obtain ⟨entry, hmem, rfl⟩ := List.mem_map.1 hname
  rw [hentries entry hmem h]
  exact List.mem_map_of_mem hmem

theorem items_of_admits_list {element : TypeExpr} {value : Value}
    (h : (named "Vec" [element]).Admits value) :
    ∃ items, value = .list items ∧ ∀ item ∈ items, element.Admits item := by
  have hplaces : ∀ place ∈ (⟨.list, value.type⟩ : Place) :: value.items.flatMap element.places,
      place.found = place.expected := h
  obtain ⟨htype, hbelow⟩ := List.forall_mem_cons.1 hplaces
  cases value with
  | list items =>
      refine ⟨items, rfl, ?_⟩
      intro item hitem place hplace
      exact hbelow place (List.mem_flatMap.2 ⟨item, hitem, hplace⟩)
  | _ => cases htype

/-- The parts of a value in which there is what a standard type expects are bounded by its bytes. -/
theorem Admits.bounds {type : TypeExpr} (htype : type.IsStandard) {value : Value}
    (h : type.Admits value) (start : Nat) :
    Value.Bounds value.standardEncoding start (value.partsAt start) := by
  induction htype generalizing value start with
  | leaf name hname => exact Value.bounds_of_leaf (type_of_admits_leaf hname h) start
  | list element _ ih =>
      obtain ⟨items, rfl, hitems⟩ := items_of_admits_list h
      rw [Value.standardEncoding_list, Codec.listEncoding, Value.partsAt]
      exact .list (Value.length_le_partsOfItems _ items)
        (Value.partsOfItems_bounds (fun item hitem => ih (hitems item hitem)) _)

end TypeExpr

/-- What a canonical codec reads is the encoding for which it is lawful. -/
theorem ValueCodec.Canonical.read_eq {codec : ValueCodec} {encoding : Value → Bytes}
    (hcanonical : codec.Canonical) (hlawful : codec.Lawful encoding) {buffer : Bytes}
    {start stop : Nat} {value : Value} (h : codec.decodeAt buffer start = .ok (value, stop)) :
    (buffer.drop start).take (stop - start) = encoding value := by
  obtain ⟨-, -, hwrites⟩ := hcanonical.of_decodeAt h
  generalize (buffer.drop start).take (stop - start) = read at hwrites ⊢
  have hroom : read.length ≤ (Writer.ofSize read.length).remaining := by
    rw [Writer.remaining_ofSize]
  exact Writer.append_injective (hlawful.appends (hwrites.encode_eq _ hroom)).after_eq

namespace Registry

open Codec

/-- Decoding a standard type never makes more of its input than there is. The values in what is
read, every list and every leaf counted once, together with the bytes of its texts and strings of
bytes, are no more than the bytes that were read, and those are no more than were left. A list is
found behind its length, and there are at least as many bytes behind the length as elements in the
list. -/
theorem decoded_parts_bounded (steps : List Step) (hsteps : registered steps = [])
    (type : TypeExpr) (htype : type.IsStandard) :
    ∃ codec, (run (.registerStandard :: steps) empty).codecOf type = .ok codec ∧
      ∀ (buffer : Bytes) (start stop : Nat) (value : Value),
        codec.decodeAt buffer start = .ok (value, stop) →
          start ≤ stop ∧ stop ≤ buffer.length ∧
          (value.partsAt start).length +
            ((value.partsAt start).map fun part => part.2.contentLength).sum ≤ stop - start ∧
          ∀ position items, (position, .list items) ∈ value.partsAt start →
            (buffer.drop position).take 4 = Bytes.ofNat 4 items.length ∧
              position + 4 + items.length ≤ stop := by
  obtain ⟨codec, hcodec, hpredicts, hcanonical, hlawful⟩ := exists_codecOf_of_cases
    (fun type codec => codec.Predicts type.places ∧ codec.Canonical ∧
      codec.Lawful Value.standardEncoding)
    (fun entry hentry => ⟨standardEntries_predict entry hentry,
      standardEntries_canonical entry hentry, standardEntries_lawful entry hentry⟩)
    (fun _ _ helement => ⟨list_predicts helement.1, erase_canonical (list_canonical helement.2.1) _,
      erase_lawful_of_wrap (list_lawful helement.2.2) _ Value.standardEncoding_list⟩)
    hsteps htype
  refine ⟨codec, hcodec, ?_⟩
  intro buffer start stop value hread
  obtain ⟨hstart, hstop, hwrites⟩ := hcanonical.of_decodeAt hread
  have hadmits : type.Admits value :=
    Place.firstMismatch_eq_none_iff.1
      (Place.judge_eq_ok_iff.1 ((hpredicts.sizeOf_eq value).symm.trans hwrites.sizeOf_eq)).1
  have hbounds := hadmits.bounds htype start
  have hbytes := hcanonical.read_eq hlawful hread
  have hlength : value.standardEncoding.length = stop - start := by
    rw [← hbytes, List.length_take, List.length_drop]
    omega
  refine ⟨hstart, hstop, hlength ▸ hbounds.weight_le, ?_⟩
  intro position items hmem
  obtain ⟨before, behind, hencoding, rfl, hitems⟩ := hbounds.lists hmem
  rw [hencoding, List.length_append, List.length_append, Bytes.length_ofNat] at hlength
  refine ⟨?_, by omega⟩
  have hrest : buffer.drop start = before ++ Bytes.ofNat 4 items.length ++ behind ++
      (buffer.drop start).drop (stop - start) := by
    rw [← hencoding, ← hbytes, List.take_append_drop]
  have hcount : (Bytes.ofNat 4 items.length).length = 4 := Bytes.length_ofNat _ _
  rw [← List.drop_drop, hrest, List.append_assoc, List.append_assoc, List.drop_left,
    List.take_append_of_le_length (by omega), List.take_of_length_le (by omega)]

/-- A list of two texts, one of them empty, that was read from between other bytes: three values and
two bytes of text in fourteen bytes, and behind the length of the list there is room for more than
two elements. -/
theorem decoded_parts_bounded_names :
    ((Codec.list (Codec.string.erase .string)).erase .list).decodeAt
        [9, 2, 0, 0, 0, 2, 0, 0, 0, 195, 177, 0, 0, 0, 0, 9] 1 =
      .ok (.list [.string "ñ", .string ""], 15) ∧
    (Value.partsAt 1 (.list [.string "ñ", .string ""])).length +
        ((Value.partsAt 1 (.list [.string "ñ", .string ""])).map
          fun part => part.2.contentLength).sum ≤ 14 ∧
    1 + 4 + [Value.string "ñ", .string ""].length ≤ 15 := by
  obtain ⟨codec, hcodec, hbounded⟩ := decoded_parts_bounded [] rfl (.named "Vec" [.base "String"])
    (.list _ (.leaf "String" (by decide)))
  obtain rfl : (Codec.list (Codec.string.erase .string)).erase .list = codec :=
    Except.ok.inj hcodec
  have hread : ((Codec.list (Codec.string.erase .string)).erase .list).decodeAt
      [9, 2, 0, 0, 0, 2, 0, 0, 0, 195, 177, 0, 0, 0, 0, 9] 1 =
        .ok (.list [.string "ñ", .string ""], 15) := rfl
  obtain ⟨-, -, hweight, hlists⟩ := hbounded _ _ _ _ hread
  exact ⟨hread, hweight, (hlists 1 _ List.mem_cons_self).2⟩

end Registry

end Switchboard
