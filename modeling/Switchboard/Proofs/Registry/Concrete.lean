import Switchboard.Proofs.Invoker.Request

/-!
# Types without a codec

A concrete type is built out of named types alone. Factories are asked for such types only, but an
entry may be registered for any type, so whether `void`, operations in progress and generics stay
without a codec is up to the entries. The main result, `Registry.codecs_concrete_iff`, says that a
codec for a type that is not concrete always comes from an entry for a part of it that is not
concrete, so that without such entries no invoker has a codec for such a type.
-/

namespace Switchboard

namespace TypeExpr

/-- A type in which everything is named, at every depth. -/
inductive IsConcrete : TypeExpr → Prop where
  | named (name args) : (∀ arg ∈ args, IsConcrete arg) → IsConcrete (named name args)

/-- `part.PartOf type` says that `part` occurs in `type`, at any depth. -/
inductive PartOf : TypeExpr → TypeExpr → Prop where
  | self (type) : PartOf type type
  | argument (part name args arg) : arg ∈ args → PartOf part arg → PartOf part (named name args)
  | result (part result) : PartOf part result → PartOf part (pending result)

end TypeExpr

namespace Catalog

mutual
/-- When a type that is not concrete has a codec, some part of it that is not concrete has an
entry. -/
theorem exists_entry_of_resolve {catalog : Catalog} {type : TypeExpr} {codec : ValueCodec}
    (h : catalog.resolve type = .ok codec) (htype : ¬ type.IsConcrete) :
    ∃ part : TypeExpr, part.PartOf type ∧ ¬ part.IsConcrete ∧
      ∃ entry, catalog.entry part = some entry := by
  cases type with
  | void =>
      rw [resolve] at h
      exact ⟨_, .self _, htype, codec, entry_of_entryOr h⟩
  | pending result =>
      rw [resolve] at h
      exact ⟨_, .self _, htype, codec, entry_of_entryOr h⟩
  | generic name =>
      rw [resolve] at h
      exact ⟨_, .self _, htype, codec, entry_of_entryOr h⟩
  | named name args =>
      rcases entry_or_build_of_resolve h with hentry | hbuild
      · exact ⟨_, .self _, htype, codec, hentry⟩
      · obtain ⟨factory, arguments, -, -, harguments, -⟩ := hbuild
        obtain ⟨arg, hmem, part, hpart, hrest⟩ :=
          exists_entry_of_resolveAll harguments fun hargs => htype (.named name args hargs)
        exact ⟨part, .argument part name args arg hmem hpart, hrest⟩

theorem exists_entry_of_resolveAll {catalog : Catalog} {types : List TypeExpr}
    {codecs : List ValueCodec} (h : catalog.resolveAll types = .ok codecs)
    (htypes : ¬ ∀ type ∈ types, type.IsConcrete) :
    ∃ type ∈ types, ∃ part : TypeExpr, part.PartOf type ∧ ¬ part.IsConcrete ∧
      ∃ entry, catalog.entry part = some entry := by
  cases types with
  | nil => exact absurd (fun _ => nofun) htypes
  | cons type types =>
      obtain ⟨codec, others, hfirst, hrest, -⟩ := cons_of_resolveAll h
      by_cases htype : type.IsConcrete
      · have hothers : ¬ ∀ type ∈ types, type.IsConcrete := fun hall =>
          htypes (List.forall_mem_cons.2 ⟨htype, hall⟩)
        obtain ⟨other, hmem, hpart⟩ := exists_entry_of_resolveAll hrest hothers
        exact ⟨other, List.mem_cons_of_mem _ hmem, hpart⟩
      · exact ⟨type, List.mem_cons_self, exists_entry_of_resolve hfirst htype⟩
end

end Catalog

namespace Registry

/-- All the entries that were registered in some steps are for concrete types. -/
def ConcreteEntries (steps : List Step) : Prop :=
  ∀ type codec, .entry type codec ∈ registered steps → type.IsConcrete

/-- What has a codec is concrete when the entries are for concrete types. -/
theorem ConcreteEntries.isConcrete {steps : List Step} (h : ConcreteEntries steps)
    {type : TypeExpr} {codec : ValueCodec}
    (hcodec : (Catalog.of (registered steps)).resolve type = .ok codec) : type.IsConcrete := by
  by_contra htype
  obtain ⟨part, -, hpart, entry, hentry⟩ := Catalog.exists_entry_of_resolve hcodec htype
  exact hpart (h part entry (Catalog.mem_of_entry hentry))

/-- After any steps, a codec for a type that is not concrete comes from an entry for a part of it
that is not concrete. There is no codec for any such type exactly when there is no such entry, and
then every parameter and every result of an invoker is of a concrete type. -/
theorem codecs_concrete_iff (steps : List Step) :
    let registry := run steps empty
    (∀ type codec, registry.codecOf type = .ok codec → ¬ type.IsConcrete →
      ∃ part : TypeExpr, part.PartOf type ∧ ¬ part.IsConcrete ∧
        ∃ entry, .entry part entry ∈ registered steps) ∧
    (ConcreteEntries steps ↔ ∀ type : TypeExpr, ¬ type.IsConcrete →
      (∃ error, registry.codecOf type = .error error) ∧
        (contains type registry).1.value = false) ∧
    (ConcreteEntries steps → ∀ (host : Host) (service : Service host) (path : ServicePath)
      (generics : List TypeExpr) (invoker : Invoker host),
      (service.compile path generics registry).1.value = .ok invoker →
      (∀ b ∈ invoker.signature.parameters,
        b.type.IsConcrete ∧ registry.codecOf b.type = .ok b.codec) ∧
      ∀ result, invoker.signature.completion.result = some result →
        result.type.IsConcrete ∧ registry.codecOf result.type = .ok result.codec) := by
  intro registry
  have hregistry := run_caches steps
  have hcodecs : registry.codecOf = (Catalog.of (registered steps)).resolve :=
    funext hregistry.codecOf_eq
  have hcontains : ∀ type, (contains type registry).1.value = (registry.codecOf type).isOk :=
    fun _ => rfl
  refine ⟨?_, ⟨?_, ?_⟩, ?_⟩
  · intro type codec hcodec htype
    rw [hcodecs] at hcodec
    obtain ⟨part, hpart, hother, entry, hentry⟩ := Catalog.exists_entry_of_resolve hcodec htype
    exact ⟨part, hpart, hother, entry, Catalog.mem_of_entry hentry⟩
  · intro hentries type htype
    rw [hcontains, hcodecs]
    cases hresolve : (Catalog.of (registered steps)).resolve type with
    | ok codec => exact absurd (hentries.isConcrete hresolve) htype
    | error error => exact ⟨⟨error, rfl⟩, rfl⟩
  · intro hnone type codec hentry
    by_contra htype
    obtain ⟨found, hfound⟩ := Catalog.exists_entry_of_mem hentry
    obtain ⟨⟨error, herror⟩, -⟩ := hnone type htype
    rw [hcodecs, resolve_of_entry hfound] at herror
    exact nomatch herror
  · intro hentries host service path generics invoker hcompile
    obtain ⟨_, _, hcompiles⟩ := Service.exists_compiles hregistry hcompile
    rw [hcodecs]
    constructor
    · intro b hmem
      have hcodec := Invoker.resolve_of_binds hcompiles.signature.parameters b hmem
      exact ⟨hentries.isConcrete hcodec, hcodec⟩
    · intro result hresult
      have hcodec := hcompiles.signature.result_codec result hresult
      exact ⟨hentries.isConcrete hcodec, hcodec⟩

/-- The standard entries are for concrete types, so there is no codec for lists of nothing. -/
theorem codecs_concrete_iff_standard :
    ∃ error, (run [.registerStandard] empty).codecOf (.named "Vec" [.void]) = .error error := by
  have hentries : ConcreteEntries [.registerStandard] := by
    intro type codec hmem
    have hstandard : .entry type codec ∈ standardRegistrations := by
      simpa [registered, Step.registrations] using hmem
    obtain ⟨entry, -, rfl, -⟩ := exists_of_entry_standard hstandard
    exact .named _ [] (List.forall_mem_nil _)
  have hvoid : ¬ TypeExpr.IsConcrete (.named "Vec" [.void]) := by
    rintro ⟨_, _, hargs⟩
    cases hargs .void List.mem_cons_self
  obtain ⟨-, hnone, -⟩ := codecs_concrete_iff [.registerStandard]
  exact (hnone.1 hentries _ hvoid).1

end Registry

namespace Service

/-- A service whose only method has a parameter that is declared to be nothing. -/
def blank : Service (.single Unit ⟨"Blank"⟩) :=
  ⟨"Blank", none, [⟨"Fill", [⟨"nothing", .void, .val⟩], .void, [], .direct, fun _ => pure .void⟩],
    []⟩

/-- The path to the method. -/
def blankPath : ServicePath := ⟨"Blank", [], "Fill", by decide⟩

open Registry in
/-- With an entry for `void`, there is a codec for `void`, for lists of it, and for a parameter that
is declared to be `void`. -/
theorem void_reaches_codec :
    let registry := run [.registerStandard,
      .registerUntyped .void ((Codec.word UInt8).erase .u8)] empty
    ¬ TypeExpr.IsConcrete .void ∧ (registry.codecOf .void).isOk = true ∧
      (registry.codecOf (.named "Vec" [.void])).isOk = true ∧
      (contains .void registry).1.value = true ∧
      ∃ invoker, (blank.compile blankPath [] registry).1.value = .ok invoker ∧
        invoker.signature.parameters.map BoundParameter.type = [.void] :=
  ⟨nofun, rfl, rfl, rfl, _, rfl, rfl⟩

end Service

end Switchboard
