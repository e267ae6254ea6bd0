import Switchboard.Proofs.Codec.Local
import Switchboard.Proofs.Registry.History

/-!
# The codecs of the standard registry

A catalog is closed under a property of codecs when its entries have it and its factories keep it
up. The main result, `Catalog.resolve_of_closed`, says that then every codec of the catalog has it.
The standard registry has a sound catalog, one in which every codec is lawful and steady, and all of
its codecs read with local actions, whatever is looked up in it.
-/

namespace Switchboard

/-- A codec that writes and reads back its values reliably, in some encoding. -/
def ValueCodec.Sound (codec : ValueCodec) : Prop :=
  ∃ encoding, codec.Lawful encoding ∧ codec.Steady encoding

theorem Codec.erase_sound {α : Type} {codec : Codec α} {encoding : α → Bytes}
    (hlawful : codec.Lawful encoding) (hsteady : codec.Steady encoding) (embedding : Embedding α) :
    (codec.erase embedding).Sound :=
  ⟨_, erase_lawful hlawful embedding, erase_steady hsteady embedding⟩

theorem Factory.list_sound {arguments : List ValueCodec} (harity : arguments.length = 1)
    (h : ∀ argument ∈ arguments, argument.Sound) : (Factory.list.build arguments).Sound := by
  obtain ⟨element, rfl⟩ := List.length_eq_one_iff.1 harity
  obtain ⟨encoding, hlawful, hsteady⟩ := h element (List.mem_singleton_self element)
  exact Codec.erase_sound (Codec.list_lawful hlawful) (Codec.list_steady hsteady) .list

theorem Factory.list_local {arguments : List ValueCodec} (harity : arguments.length = 1)
    (h : ∀ argument ∈ arguments, ReadM.Local argument.decode) :
    ReadM.Local (Factory.list.build arguments).decode := by
  obtain ⟨element, rfl⟩ := List.length_eq_one_iff.1 harity
  have helement := h element (List.mem_singleton_self element)
  exact Codec.erase_local (Codec.list_local helement) .list

namespace Catalog

/-- A catalog whose entries have a property, and whose factories build codecs that have it out of
codecs that have it. -/
structure Closed (Property : ValueCodec → Prop) (catalog : Catalog) : Prop where
  entry {type : TypeExpr} {codec : ValueCodec} : catalog.entry type = some codec → Property codec
  factory {name : String} {factory : Factory} {arguments : List ValueCodec} :
    catalog.factory name = some factory → arguments.length = factory.arity →
    (∀ argument ∈ arguments, Property argument) → Property (factory.build arguments)

/-- A catalog whose entries are sound, and whose factories build sound codecs out of sound ones. -/
def Sound (catalog : Catalog) : Prop := catalog.Closed ValueCodec.Sound

/-- An entry of a catalog was registered. -/
theorem mem_of_entry {registrations : List Registration} {type : TypeExpr} {codec : ValueCodec}
    (h : (of registrations).entry type = some codec) : .entry type codec ∈ registrations := by
  obtain ⟨registration, hmem, hcodec⟩ := List.exists_of_findSome?_eq_some h
  rw [List.mem_reverse] at hmem
  cases registration with
  | entry registered given =>
      by_cases hsame : registered = type
      · obtain rfl : given = codec := by simpa [Registration.codecFor, hsame] using hcodec
        exact hsame ▸ hmem
      · simp [Registration.codecFor, hsame] at hcodec
  | factory name maker => cases hcodec

/-- A factory of a catalog was registered. -/
theorem mem_of_factory {registrations : List Registration} {name : String} {factory : Factory}
    (h : (of registrations).factory name = some factory) :
    .factory name factory ∈ registrations := by
  obtain ⟨registration, hmem, hmade⟩ := List.exists_of_findSome?_eq_some h
  rw [List.mem_reverse] at hmem
  cases registration with
  | entry type codec => exact nomatch hmade
  | factory registered given =>
      by_cases hsame : registered = name
      · obtain rfl : given = factory := by simpa [Registration.factoryFor, hsame] using hmade
        exact hsame ▸ hmem
      · simp [Registration.factoryFor, hsame] at hmade

/-- What was registered for a type gives it an entry, this one or a later one. -/
theorem exists_entry_of_mem {registrations : List Registration} {type : TypeExpr}
    {codec : ValueCodec} (h : .entry type codec ∈ registrations) :
    ∃ found, (of registrations).entry type = some found := by
  refine Option.isSome_iff_exists.1 (List.findSome?_isSome_iff.2 ⟨_, List.mem_reverse.2 h, ?_⟩)
  simp [Registration.codecFor]

theorem entry_of_entryOr {catalog : Catalog} {type : TypeExpr} {error : LookupError}
    {codec : ValueCodec} (h : catalog.entryOr type (.error error) = .ok codec) :
    catalog.entry type = some codec := by
  unfold entryOr at h
  cases hentry : catalog.entry type with
  | none =>
      rw [hentry] at h
      exact nomatch h
  | some found =>
      rw [hentry] at h
      cases h
      rfl

/-- What a named type resolves to is its entry, or built out of what its arguments resolve to. -/
theorem entry_or_build_of_resolve {catalog : Catalog} {name : String} {args : List TypeExpr}
    {codec : ValueCodec} (h : catalog.resolve (.named name args) = .ok codec) :
    catalog.entry (.named name args) = some codec ∨
      ∃ factory arguments, catalog.factory name = some factory ∧ factory.arity = args.length ∧
        catalog.resolveAll args = .ok arguments ∧ codec = factory.build arguments := by
  rw [resolve] at h
  cases hentry : catalog.entry (.named name args) with
  | some found =>
      simp only [entryOr, hentry] at h
      cases h
      exact .inl rfl
  | none =>
      simp only [entryOr, hentry] at h
      cases hfactory : catalog.factory name with
      | none =>
          rw [hfactory] at h
          cases h
      | some factory =>
          by_cases harity : factory.arity = args.length
          · cases harguments : catalog.resolveAll args with
            | error error => simp [hfactory, harity, harguments, bind, Except.bind] at h
            | ok arguments =>
                have hcodec : factory.build arguments = codec := by
                  simpa [hfactory, harity, harguments, bind, Except.bind, pure, Except.pure] using h
                exact .inr ⟨factory, arguments, rfl, harity, rfl, hcodec.symm⟩
          · simp [hfactory, harity] at h

/-- The types of a list resolve one by one. -/
theorem cons_of_resolveAll {catalog : Catalog} {type : TypeExpr} {types : List TypeExpr}
    {codecs : List ValueCodec} (h : catalog.resolveAll (type :: types) = .ok codecs) :
    ∃ codec others, catalog.resolve type = .ok codec ∧ catalog.resolveAll types = .ok others ∧
      codec :: others = codecs := by
  rw [resolveAll] at h
  cases hfirst : catalog.resolve type with
  | error error => simp [hfirst, bind, Except.bind] at h
  | ok codec =>
      cases hrest : catalog.resolveAll types with
      | error error => simp [hfirst, hrest, bind, Except.bind] at h
      | ok others =>
          have hcodecs : codec :: others = codecs := by
            simpa [hfirst, hrest, bind, Except.bind, pure, Except.pure] using h
          exact ⟨codec, others, rfl, rfl, hcodecs⟩

mutual
/-- Every codec of a closed catalog has the property. -/
theorem resolve_of_closed {Property : ValueCodec → Prop} {catalog : Catalog}
    (hcatalog : catalog.Closed Property) {type : TypeExpr} {codec : ValueCodec}
    (h : catalog.resolve type = .ok codec) : Property codec := by
  cases type with
  | void =>
      rw [resolve] at h
      exact hcatalog.entry (entry_of_entryOr h)
  | pending result =>
      rw [resolve] at h
      exact hcatalog.entry (entry_of_entryOr h)
  | generic name =>
      rw [resolve] at h
      exact hcatalog.entry (entry_of_entryOr h)
  | named name args =>
      rcases entry_or_build_of_resolve h with hentry | hbuild
      · exact hcatalog.entry hentry
      · obtain ⟨factory, arguments, hfactory, harity, harguments, rfl⟩ := hbuild
        obtain ⟨hlength, hproperty⟩ := resolveAll_of_closed hcatalog harguments
        exact hcatalog.factory hfactory (hlength.trans harity.symm) hproperty

theorem resolveAll_of_closed {Property : ValueCodec → Prop} {catalog : Catalog}
    (hcatalog : catalog.Closed Property) {types : List TypeExpr} {codecs : List ValueCodec}
    (h : catalog.resolveAll types = .ok codecs) :
    codecs.length = types.length ∧ ∀ codec ∈ codecs, Property codec := by
  cases types with
  | nil =>
      cases h
      exact ⟨rfl, nofun⟩
  | cons type types =>
      obtain ⟨codec, others, hfirst, hrest, rfl⟩ := cons_of_resolveAll h
      obtain ⟨hlength, hproperty⟩ := resolveAll_of_closed hcatalog hrest
      exact ⟨congrArg (· + 1) hlength,
        List.forall_mem_cons.2 ⟨resolve_of_closed hcatalog hfirst, hproperty⟩⟩
end

end Catalog

namespace Registry

open Codec in
theorem standardEntries_sound : ∀ entry ∈ standardEntries, entry.2.Sound := by
  simp only [standardEntries, List.forall_mem_cons]
  exact ⟨erase_sound word_lawful word_steady .u8, erase_sound bool_lawful bool_steady .bool,
    erase_sound word_lawful word_steady .i32, erase_sound word_lawful word_steady .u32,
    erase_sound word_lawful word_steady .i64, erase_sound word_lawful word_steady .u64,
    erase_sound word_lawful word_steady .f64, erase_sound string_lawful string_steady .string,
    erase_sound bytes_lawful bytes_steady .bytes, nofun⟩

open Codec in
theorem standardEntries_local : ∀ entry ∈ standardEntries, ReadM.Local entry.2.decode := by
  simp only [standardEntries, List.forall_mem_cons]
  exact ⟨erase_local word_local .u8, erase_local bool_local .bool, erase_local word_local .i32,
    erase_local word_local .u32, erase_local word_local .i64, erase_local word_local .u64,
    erase_local word_local .f64, erase_local string_local .string, erase_local bytes_local .bytes,
    nofun⟩

/-- The standard entries are for named types without arguments. -/
theorem exists_of_entry_standard {type : TypeExpr} {codec : ValueCodec}
    (h : .entry type codec ∈ standardRegistrations) :
    ∃ entry ∈ standardEntries, .base entry.1 = type ∧ entry.2 = codec := by
  rw [standardRegistrations, List.mem_append, List.mem_map, List.mem_singleton] at h
  rcases h with ⟨entry, hentry, hsame⟩ | hfactory
  · exact ⟨entry, hentry, Registration.entry.inj hsame⟩
  · cases hfactory

/-- The catalog of the standard registry is closed under every property that its entries have and
that its only factory keeps up. -/
theorem standardRegistrations_closed {Property : ValueCodec → Prop}
    (hentries : ∀ entry ∈ standardEntries, Property entry.2)
    (hlist : ∀ arguments : List ValueCodec, arguments.length = 1 →
      (∀ argument ∈ arguments, Property argument) → Property (Factory.list.build arguments)) :
    (Catalog.of standardRegistrations).Closed Property where
  entry {type codec} h := by
    obtain ⟨entry, hentry, -, rfl⟩ := exists_of_entry_standard (Catalog.mem_of_entry h)
    exact hentries entry hentry
  factory {name factory arguments} h harity hproperty := by
    have hmem := Catalog.mem_of_factory h
    rw [standardRegistrations, List.mem_append, List.mem_map, List.mem_singleton] at hmem
    rcases hmem with ⟨entry, -, hentry⟩ | hfactory
    · cases hentry
    · obtain ⟨-, rfl⟩ := Registration.factory.inj hfactory
      exact hlist arguments harity hproperty

/-- The catalog of the standard registry is sound. -/
theorem standardRegistrations_sound : (Catalog.of standardRegistrations).Sound :=
  standardRegistrations_closed standardEntries_sound fun _ => Factory.list_sound

/-- Every codec of the standard registry reads with a local action. -/
theorem standardRegistrations_local {type : TypeExpr} {codec : ValueCodec}
    (h : (Catalog.of standardRegistrations).resolve type = .ok codec) :
    ReadM.Local codec.decode := by
  have hclosed : (Catalog.of standardRegistrations).Closed fun codec => ReadM.Local codec.decode :=
    standardRegistrations_closed standardEntries_local fun _ => Factory.list_local
  exact Catalog.resolve_of_closed hclosed h

/-- A standard registry in which nothing else was registered is in line with the standard
registrations, whatever was looked up or compiled in it. -/
theorem run_standard_caches {steps : List Step} (hsteps : registered steps = []) :
    (run (.registerStandard :: steps) empty).Caches (.of standardRegistrations) := by
  have hregistered : registered (.registerStandard :: steps) = standardRegistrations := by
    show standardRegistrations ++ registered steps = standardRegistrations
    rw [hsteps, List.append_nil]
  have hcaches := run_caches (.registerStandard :: steps)
  rw [hregistered] at hcaches
  exact hcaches

end Registry

end Switchboard
