import Switchboard.Proofs.Registry.Builds
import Switchboard.Proofs.Registry.Concrete

/-!
# How far a registration reaches

A type is resolved from the entries of its parts, and from the factories of the named parts that
come into view before an entry is found. Catalogs that agree on these resolve it alike, and a
catalog with more entries resolves whatever resolved before. The main result,
`Registry.registration_local`, says so of single registrations, whatever happened to the registry
before.
-/

namespace Switchboard

/-- What occurs in a named type is the type itself or occurs in an argument. -/
theorem TypeExpr.partOf_named_iff {part : TypeExpr} {name : String} {args : List TypeExpr} :
    part.PartOf (.named name args) ↔
      part = .named name args ∨ ∃ arg ∈ args, part.PartOf arg := by
  constructor
  · intro h
    cases h with
    | self => exact .inl rfl
    | argument _ _ arg hmem hpart => exact .inr ⟨arg, hmem, hpart⟩
  · rintro (rfl | ⟨arg, hmem, hpart⟩)
    · exact .self _
    · exact .argument _ _ _ arg hmem hpart

namespace Catalog

/-- `catalog.Exposes type part` says that `part` occurs in `type`, at any depth, and that neither
`part` nor anything around it has an entry. -/
inductive Exposes (catalog : Catalog) : (type part : TypeExpr) → Prop where
  | self (type) : catalog.entry type = none → Exposes catalog type type
  | argument (name args arg part) : catalog.entry (.named name args) = none → arg ∈ args →
      Exposes catalog arg part → Exposes catalog (.named name args) part
  | result (result part) : catalog.entry (.pending result) = none →
      Exposes catalog result part → Exposes catalog (.pending result) part

/-- `other.Extends catalog` says that `other` has the factories of `catalog`, and an entry, maybe
another one, for every type that has an entry in `catalog`. -/
structure Extends (other catalog : Catalog) : Prop where
  entry {type : TypeExpr} {codec : ValueCodec} : catalog.entry type = some codec →
    ∃ found, other.entry type = some found
  factory_eq : other.factory = catalog.factory

variable {catalog other : Catalog}

/-- A named type exposes something only if it has no entry, and then what its arguments expose. -/
theorem exposes_named_iff {name : String} {args : List TypeExpr} {part : TypeExpr} :
    catalog.Exposes (.named name args) part ↔ catalog.entry (.named name args) = none ∧
      (part = .named name args ∨ ∃ arg ∈ args, catalog.Exposes arg part) := by
  constructor
  · intro h
    cases h with
    | self _ hnone => exact ⟨hnone, .inl rfl⟩
    | argument _ _ arg _ hnone hmem hexposed => exact ⟨hnone, .inr ⟨arg, hmem, hexposed⟩⟩
  · rintro ⟨hnone, rfl | ⟨arg, hmem, hexposed⟩⟩
    · exact .self _ hnone
    · exact .argument _ _ arg _ hnone hmem hexposed

mutual
/-- Only the entries of its parts, and the factories of its exposed parts, matter to a type. -/
theorem resolve_congr {type : TypeExpr}
    (hentry : ∀ part : TypeExpr, part.PartOf type → other.entry part = catalog.entry part)
    (hfactory : ∀ name args, catalog.Exposes type (.named name args) →
      other.factory name = catalog.factory name) :
    other.resolve type = catalog.resolve type := by
  have hself := hentry type (.self type)
  cases type with
  | void => rw [resolve, resolve, entryOr, entryOr, hself]
  | pending result => rw [resolve, resolve, entryOr, entryOr, hself]
  | generic name => rw [resolve, resolve, entryOr, entryOr, hself]
  | named name args =>
      rw [resolve, resolve, entryOr, entryOr, hself]
      cases hnone : catalog.entry (.named name args) with
      | some codec => rfl
      | none =>
          -- Without an entry the type is exposed itself, and its arguments are looked at.
          have hargs : other.resolveAll args = catalog.resolveAll args :=
            resolveAll_congr
              (fun arg hmem part hpart => hentry part (.argument part name args arg hmem hpart))
              fun arg hmem inner innerArgs hexposed =>
                hfactory inner innerArgs (.argument name args arg _ hnone hmem hexposed)
          rw [hfactory name args (.self _ hnone), hargs]

theorem resolveAll_congr {types : List TypeExpr}
    (hentry : ∀ type ∈ types, ∀ part : TypeExpr, part.PartOf type →
      other.entry part = catalog.entry part)
    (hfactory : ∀ type ∈ types, ∀ name args, catalog.Exposes type (.named name args) →
      other.factory name = catalog.factory name) :
    other.resolveAll types = catalog.resolveAll types := by
  cases types with
  | nil => rfl
  | cons type types =>
      have htype := resolve_congr (hentry type List.mem_cons_self)
        (hfactory type List.mem_cons_self)
      have htypes := resolveAll_congr
        (fun other hmem => hentry other (List.mem_cons_of_mem _ hmem))
        fun other hmem => hfactory other (List.mem_cons_of_mem _ hmem)
      rw [resolveAll, resolveAll, htype, htypes]
end

mutual
/-- What resolves in a catalog resolves in every extension of it. -/
theorem Extends.exists_resolve (h : other.Extends catalog) {type : TypeExpr} {codec : ValueCodec}
    (hcodec : catalog.resolve type = .ok codec) : ∃ found, other.resolve type = .ok found := by
  have hentry : ∀ {codec}, catalog.entry type = some codec →
      ∃ found, other.resolve type = .ok found := by
    intro codec hsome
    obtain ⟨found, hfound⟩ := h.entry hsome
    exact ⟨found, Registry.resolve_of_entry hfound⟩
  cases type with
  | void =>
      rw [resolve] at hcodec
      exact hentry (entry_of_entryOr hcodec)
  | pending result =>
      rw [resolve] at hcodec
      exact hentry (entry_of_entryOr hcodec)
  | generic name =>
      rw [resolve] at hcodec
      exact hentry (entry_of_entryOr hcodec)
  | named name args =>
      rcases entry_or_build_of_resolve hcodec with hsome | hbuild
      · exact hentry hsome
      · obtain ⟨factory, arguments, hfactory, harity, harguments, -⟩ := hbuild
        obtain ⟨others, hothers⟩ := h.exists_resolveAll harguments
        -- The extension builds the type from its own arguments, unless it has a new entry for it.
        cases hnew : other.entry (.named name args) with
        | some found => exact ⟨found, Registry.resolve_of_entry hnew⟩
        | none =>
            refine ⟨factory.build others, ?_⟩
            rw [resolve, entryOr, hnew, h.factory_eq, hfactory]
            simp only [harity, if_true, hothers]
            rfl

theorem Extends.exists_resolveAll (h : other.Extends catalog) {types : List TypeExpr}
    {codecs : List ValueCodec} (hcodecs : catalog.resolveAll types = .ok codecs) :
    ∃ found, other.resolveAll types = .ok found := by
  cases types with
  | nil => exact ⟨[], rfl⟩
  | cons type types =>
      obtain ⟨codec, rest, hfirst, hrest, -⟩ := cons_of_resolveAll hcodecs
      obtain ⟨first, hfirst⟩ := h.exists_resolve hfirst
      obtain ⟨others, hothers⟩ := h.exists_resolveAll hrest
      refine ⟨first :: others, ?_⟩
      rw [resolveAll, hfirst, hothers]
      rfl
end

end Catalog

namespace Registry

/-- A registry without builds is in line with its own registrations. -/
theorem caches_of_builds_eq_nil {registry : Registry} (h : registry.builds = []) :
    registry.Caches registry.catalog where
  catalog_eq := rfl
  builds_eq := by
    rw [h]
    exact fun _ => nofun

/-- After any steps a registry answers as its registrations say. -/
theorem codecOf_run (steps : List Step) (type : TypeExpr) :
    (run steps empty).codecOf type = (run steps empty).catalog.resolve type := by
  have hcaches := run_caches steps
  rw [hcaches.codecOf_eq, hcaches.catalog_eq]

variable {registry : Registry}

theorem codecOf_register (target : TypeExpr) (codec : ValueCodec) (type : TypeExpr) :
    (registry.register target codec).codecOf type =
      (registry.register target codec).catalog.resolve type :=
  (caches_of_builds_eq_nil rfl).codecOf_eq type

theorem codecOf_registerGeneric (name : String) (factory : Factory) (type : TypeExpr) :
    (registry.registerGeneric name factory).codecOf type =
      (registry.registerGeneric name factory).catalog.resolve type :=
  (caches_of_builds_eq_nil rfl).codecOf_eq type

/-- A registration for another type leaves an entry alone. -/
theorem entry_register_of_ne {target type : TypeExpr} (codec : ValueCodec) (h : type ≠ target) :
    (registry.register target codec).catalog.entry type = registry.catalog.entry type := by
  show ((target, codec) :: registry.entries).lookup type = registry.entries.lookup type
  rw [List.lookup_cons, beq_false_of_ne h]

/-- A registration for another name leaves a factory alone. -/
theorem factory_registerGeneric_of_ne {target name : String} (factory : Factory)
    (h : name ≠ target) :
    (registry.registerGeneric target factory).catalog.factory name =
      registry.catalog.factory name := by
  show ((target, factory) :: registry.factories).lookup name = registry.factories.lookup name
  rw [List.lookup_cons, beq_false_of_ne h]

/-- One more entry takes no other entry away. -/
theorem register_extends (registry : Registry) (target : TypeExpr) (codec : ValueCodec) :
    (registry.register target codec).catalog.Extends registry.catalog where
  entry {type} old hold := by
    by_cases hsame : type = target
    · refine ⟨codec, ?_⟩
      show ((target, codec) :: registry.entries).lookup type = some codec
      rw [hsame, List.lookup_cons_self]
    · exact ⟨old, (entry_register_of_ne codec hsame).trans hold⟩
  factory_eq := rfl

/-- A registration reaches no further than it says, whatever was registered, looked up or compiled
before. An entry for a type that is no part of another one does not change the answer for the
latter, and neither does a factory for a name that no exposed part of it has. An entry for whatever
type leaves no type without a codec that had one. -/
theorem registration_local (steps : List Step) (type : TypeExpr) :
    let registry := run steps empty
    (∀ (target : TypeExpr) (codec : ValueCodec), ¬ target.PartOf type →
      (registry.register target codec).codecOf type = registry.codecOf type) ∧
    (∀ (name : String) (factory : Factory),
      (∀ args, ¬ registry.catalog.Exposes type (.named name args)) →
      (registry.registerGeneric name factory).codecOf type = registry.codecOf type) ∧
    ∀ (target : TypeExpr) (codec found : ValueCodec), registry.codecOf type = .ok found →
      ∃ other, (registry.register target codec).codecOf type = .ok other := by
  intro registry
  refine ⟨?_, ?_, ?_⟩
  · intro target codec htarget
    rw [codecOf_register, codecOf_run]
    refine Catalog.resolve_congr (fun part hpart => entry_register_of_ne codec ?_) fun _ _ _ => rfl
    rintro rfl
    exact htarget hpart
  · intro name factory hname
    rw [codecOf_registerGeneric, codecOf_run]
    refine Catalog.resolve_congr (fun _ _ => rfl) fun other args hexposed =>
      factory_registerGeneric_of_ne factory ?_
    rintro rfl
    exact hname args hexposed
  · intro target codec found hfound
    rw [codecOf_run] at hfound
    rw [codecOf_register]
    exact (register_extends registry target codec).exists_resolve hfound

/-- A pair of a list of bytes and a truth value. -/
def packet : TypeExpr := .named "Pair" [.named "Vec" [.base "u8"], .base "bool"]

/-- Lists of bytes have an entry of their own, and the codec of the pair was built over it. -/
def packetSteps : List Step :=
  [.registerStandard, .registerGeneric "Pair" pairFactory,
    .registerUntyped (.named "Vec" [.base "u8"]) (Codec.bytes.erase .bytes), .lookup packet]

/-- The entry hides the list from its factory, which may be replaced, and no number is a part of the
pair. The bytes inside the list are a part of it and get another codec, and the pair keeps one. -/
theorem registration_local_packet :
    let registry := run packetSteps empty
    (¬ TypeExpr.PartOf (.base "i32") packet ∧
      (registry.register (.base "i32") (Codec.unit.erase .unit)).codecOf packet =
        registry.codecOf packet) ∧
    ((∀ args, ¬ registry.catalog.Exposes packet (.named "Vec" args)) ∧
      (registry.registerGeneric "Vec" pairFactory).codecOf packet = registry.codecOf packet) ∧
    (registry.codecOf packet).isOk = true ∧
    ∃ other, (registry.register (.base "u8") (Codec.unit.erase .unit)).codecOf packet =
      .ok other := by
  intro registry
  obtain ⟨hentries, hfactories, hkept⟩ := registration_local packetSteps packet
  have hnumber : ¬ TypeExpr.PartOf (.base "i32") packet := by
    simp [packet, TypeExpr.partOf_named_iff]
  have hlist : registry.catalog.entry (.named "Vec" [.base "u8"]) ≠ none := nofun
  have hhidden : ∀ args, ¬ registry.catalog.Exposes packet (.named "Vec" args) := by
    intro args
    simp [packet, Catalog.exposes_named_iff, hlist]
  exact ⟨⟨hnumber, hentries _ _ hnumber⟩, ⟨hhidden, hfactories _ _ hhidden⟩, rfl,
    hkept _ _ _ rfl⟩

end Registry

end Switchboard
