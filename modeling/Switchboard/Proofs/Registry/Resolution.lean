import Mathlib
import Switchboard.Registry.Basic

/-!
# Resolution without builds

A `Catalog` is what has been registered, and `Catalog.resolve` finds the codec of a type in it
without remembering anything. `Registry.Caches` relates a registry to a catalog: the registrations
are those of the catalog, and every build is what the catalog gives. The main result,
`Registry.find_yields`, says that on such a registry `Registry.find` answers as `Catalog.resolve`
does, whatever was looked up before and whether or not it succeeded.
-/

namespace Switchboard

/-- What is registered: an entry gives a type its codec, and a factory builds the codecs of the
instances of a parameterised type. -/
@[ext]
structure Catalog where
  entry : TypeExpr → Option ValueCodec
  factory : String → Option Factory

namespace Catalog

/-- The entry of `type`, or else what `unknown` says. -/
def entryOr (catalog : Catalog) (type : TypeExpr) (unknown : Except LookupError ValueCodec) :
    Except LookupError ValueCodec :=
  match catalog.entry type with
  | some codec => .ok codec
  | none => unknown

mutual
/-- `resolve catalog type` is the codec of `type`: its entry, or else the codec that the factory of
its name builds out of the codecs of its arguments. -/
def resolve (catalog : Catalog) : TypeExpr → Except LookupError ValueCodec
  | .void => catalog.entryOr .void (.error (.notEncodable .void))
  | .pending result =>
      catalog.entryOr (.pending result) (.error (.notEncodable (.pending result)))
  | .generic name => catalog.entryOr (.generic name) (.error (.unresolvedGeneric (.generic name)))
  | .named name args => catalog.entryOr (.named name args) <|
      match catalog.factory name with
      | none => .error (.notRegistered (.named name args))
      | some factory =>
          if factory.arity = args.length then do
            let arguments ← resolveAll catalog args
            pure (factory.build arguments)
          else .error (.arity (.named name args) factory.arity args.length)

/-- Resolves the types of a list from left to right. -/
def resolveAll (catalog : Catalog) : List TypeExpr → Except LookupError (List ValueCodec)
  | [] => .ok []
  | type :: types => do
      let codec ← resolve catalog type
      let codecs ← resolveAll catalog types
      pure (codec :: codecs)
end

end Catalog

namespace Registry

/-- The registrations of a registry, without its builds. -/
def catalog (registry : Registry) : Catalog where
  entry type := registry.entries.lookup type
  factory name := registry.factories.lookup name

/-- The answer of a lookup of `type`. -/
def codecOf (registry : Registry) (type : TypeExpr) : Except LookupError ValueCodec :=
  (lookup type registry).1.value

/-- `registry.Caches catalog` says that `registry` has the registrations of `catalog` and that its
builds are what the catalog gives. -/
structure Caches (registry : Registry) (catalog : Catalog) : Prop where
  catalog_eq : registry.catalog = catalog
  builds_eq : ∀ build ∈ registry.builds, catalog.resolve build.type = .ok build.codec

/-- `Yields catalog action found failed` says that `action`, when it is started on a registry that
caches `catalog`, leaves one behind, and that its result satisfies `found` or its error satisfies
`failed`. -/
def Yields {ε α : Type} (catalog : Catalog) (action : EStateM ε Registry α) (found : α → Prop)
    (failed : ε → Prop) : Prop :=
  ∀ registry : Registry, registry.Caches catalog →
    match action registry with
    | .ok a after => after.Caches catalog ∧ found a
    | .error error after => after.Caches catalog ∧ failed error

section Yields

variable {ε δ α β : Type} {catalog : Catalog}

theorem Yields.pure {found : α → Prop} {failed : ε → Prop} {a : α} (h : found a) :
    Yields catalog (Pure.pure a) found failed :=
  fun _ hregistry => ⟨hregistry, h⟩

theorem Yields.throw {found : α → Prop} {failed : ε → Prop} {error : ε} (h : failed error) :
    Yields catalog (MonadExcept.throw error) found failed :=
  fun _ hregistry => ⟨hregistry, h⟩

/-- A result that does not depend on the registry. -/
theorem Yields.ofExcept {found : α → Prop} {failed : ε → Prop} {result : Except ε α}
    (hok : ∀ a, result = .ok a → found a) (herror : ∀ error, result = .error error → failed error) :
    Yields catalog (MonadExcept.ofExcept result) found failed := by
  cases result with
  | ok a => exact .pure (hok a rfl)
  | error error => exact .throw (herror error rfl)

/-- Two actions one after the other. The second is only started on what the first has found. -/
theorem Yields.bind {action : EStateM ε Registry α} {next : α → EStateM ε Registry β}
    {found : α → Prop} {result : β → Prop} {failed : ε → Prop}
    (h : Yields catalog action found failed)
    (hnext : ∀ a, found a → Yields catalog (next a) result failed) :
    Yields catalog (action >>= next) result failed := by
  intro registry hregistry
  have haction := h registry hregistry
  show match EStateM.bind action next registry with
    | .ok a after => after.Caches catalog ∧ result a
    | .error error after => after.Caches catalog ∧ failed error
  unfold EStateM.bind
  cases hresult : action registry with
  | ok a after =>
      rw [hresult] at haction
      exact hnext a haction.2 after haction.1
  | error error after =>
      rw [hresult] at haction
      exact haction

/-- Nothing happens after a failure. -/
theorem Yields.throw_bind {next : α → EStateM ε Registry β} {result : β → Prop}
    {failed : ε → Prop} {error : ε} (h : failed error) :
    Yields catalog (MonadExcept.throw error >>= next) result failed :=
  fun _ hregistry => ⟨hregistry, h⟩

/-- An action whose errors are renamed. -/
theorem Yields.adapt {action : EStateM ε Registry α} {rename : ε → δ} {found : α → Prop}
    {failed : ε → Prop} {renamed : δ → Prop} (h : Yields catalog action found failed)
    (hrename : ∀ error, failed error → renamed (rename error)) :
    Yields catalog (action.adaptExcept rename) found renamed := by
  intro registry hregistry
  have haction := h registry hregistry
  unfold EStateM.adaptExcept
  cases hresult : action registry with
  | ok a after =>
      rw [hresult] at haction
      exact haction
  | error error after =>
      rw [hresult] at haction
      exact ⟨haction.1, hrename error haction.2⟩

theorem Yields.mono {action : EStateM ε Registry α} {found wider : α → Prop}
    {failed widened : ε → Prop} (h : Yields catalog action found failed)
    (hfound : ∀ a, found a → wider a) (hfailed : ∀ error, failed error → widened error) :
    Yields catalog action wider widened := by
  intro registry hregistry
  have haction := h registry hregistry
  cases hresult : action registry with
  | ok a after =>
      rw [hresult] at haction
      exact ⟨haction.1, hfound a haction.2⟩
  | error error after =>
      rw [hresult] at haction
      exact ⟨haction.1, hfailed error haction.2⟩

end Yields

variable {catalog : Catalog}

theorem resolve_of_entry {type : TypeExpr} {codec : ValueCodec}
    (h : catalog.entry type = some codec) : catalog.resolve type = .ok codec := by
  cases type <;> simp [Catalog.resolve, Catalog.entryOr, h]

/-- What a registry knows without a new build is what its catalog gives. -/
theorem Caches.resolve_of_known {registry : Registry} (hregistry : registry.Caches catalog)
    {type : TypeExpr} {codec : ValueCodec} (h : registry.known? type = some codec) :
    catalog.resolve type = .ok codec := by
  cases hentry : registry.entries.lookup type with
  | some entry =>
      obtain rfl : entry = codec := by simpa [known?, hentry] using h
      exact resolve_of_entry (by rw [← hregistry.catalog_eq]; exact hentry)
  | none =>
      have hbuilt : registry.built? type = some codec := by simpa [known?, hentry] using h
      obtain ⟨build, hbuild, rfl⟩ := Option.map_eq_some_iff.1 hbuilt
      obtain rfl : build.type = type := by simpa using List.find?_some hbuild
      exact hregistry.builds_eq build (List.mem_of_find?_eq_some hbuild)

theorem Caches.entry_of_unknown {registry : Registry} (hregistry : registry.Caches catalog)
    {type : TypeExpr} (h : registry.known? type = none) : catalog.entry type = none := by
  rw [← hregistry.catalog_eq]
  show registry.entries.lookup type = none
  cases hentry : registry.entries.lookup type with
  | none => rfl
  | some entry => simp [known?, hentry] at h

theorem orKnown_of_known {type : TypeExpr} {unknown : LookupM ValueCodec} {registry : Registry}
    {codec : ValueCodec} (h : registry.known? type = some codec) :
    orKnown type unknown registry = .ok codec registry := by
  unfold orKnown
  simp only [bind, EStateM.bind, get, getThe, MonadStateOf.get, EStateM.get, h]
  rfl

theorem orKnown_of_unknown {type : TypeExpr} {unknown : LookupM ValueCodec} {registry : Registry}
    (h : registry.known? type = none) : orKnown type unknown registry = unknown registry := by
  unfold orKnown
  simp only [bind, EStateM.bind, get, getThe, MonadStateOf.get, EStateM.get, h]

/-- `Answers catalog type action` says that `action` answers as the catalog does for `type`. -/
def Answers (catalog : Catalog) (type : TypeExpr) (action : LookupM ValueCodec) : Prop :=
  Yields catalog action (fun codec => catalog.resolve type = .ok codec)
    (fun error => catalog.resolve type = .error error)

/-- A remembered answer is the right one, so only the answer for an unknown type matters. -/
theorem orKnown_answers {type : TypeExpr} {unknown : LookupM ValueCodec}
    (h : catalog.entry type = none → Answers catalog type unknown) :
    Answers catalog type (orKnown type unknown) := by
  intro registry hregistry
  cases hknown : registry.known? type with
  | some codec =>
      rw [orKnown_of_known hknown]
      exact ⟨hregistry, hregistry.resolve_of_known hknown⟩
  | none =>
      rw [orKnown_of_unknown hknown]
      exact h (hregistry.entry_of_unknown hknown) registry hregistry

/-- A factory is the one of the catalog, and its arity is checked before any argument is looked
at. -/
theorem factoryFor_yields {name : String} {args : List TypeExpr}
    (hentry : catalog.entry (.named name args) = none) :
    Yields catalog (factoryFor name args)
      (fun factory => catalog.factory name = some factory ∧ factory.arity = args.length)
      (fun error => catalog.resolve (.named name args) = .error error) := by
  intro registry hregistry
  have hfactory : catalog.factory name = registry.factories.lookup name := by
    rw [← hregistry.catalog_eq]
    rfl
  simp only [factoryFor, bind, EStateM.bind, get, getThe, MonadStateOf.get, EStateM.get]
  cases hlookup : registry.factories.lookup name with
  | none =>
      exact ⟨hregistry, by simp [Catalog.resolve, Catalog.entryOr, hentry, hfactory, hlookup]⟩
  | some factory =>
      by_cases harity : factory.arity = args.length
      · simp only [harity, if_true]
        exact ⟨hregistry, by rw [hfactory, hlookup], harity⟩
      · simp only [harity, if_false]
        exact ⟨hregistry,
          by simp [Catalog.resolve, Catalog.entryOr, hentry, hfactory, hlookup, harity]⟩

/-- A build may be remembered when it is what the catalog gives. -/
theorem build_answers {factory : Factory} {type : TypeExpr} {arguments : List ValueCodec}
    (h : catalog.resolve type = .ok (factory.build arguments)) :
    Answers catalog type (build factory type arguments) := by
  intro registry hregistry
  refine ⟨⟨hregistry.catalog_eq, ?_⟩, h⟩
  intro build hbuild
  -- The builds from before are still right, and the new one is right by assumption.
  rcases List.mem_append.1 hbuild with hbefore | hnew
  · exact hregistry.builds_eq build hbefore
  · rw [List.mem_singleton.1 hnew]
    exact h

variable (catalog) in
mutual
/-- A lookup answers as the catalog does, and leaves only right builds behind, even when it
fails half way. -/
theorem find_answers (type : TypeExpr) : Answers catalog type (find type) := by
  cases type with
  | void =>
      rw [find]
      exact orKnown_answers fun hentry =>
        .throw (by simp [Catalog.resolve, Catalog.entryOr, hentry])
  | pending result =>
      rw [find]
      exact orKnown_answers fun hentry =>
        .throw (by simp [Catalog.resolve, Catalog.entryOr, hentry])
  | generic name =>
      rw [find]
      exact orKnown_answers fun hentry =>
        .throw (by simp [Catalog.resolve, Catalog.entryOr, hentry])
  | named name args =>
      rw [find]
      refine orKnown_answers fun hentry => (factoryFor_yields hentry).bind ?_
      intro factory hfound
      obtain ⟨hfactory, harity⟩ := hfound
      -- From here on the catalog does what the registry does: arguments first, then the factory.
      have hresolve : catalog.resolve (.named name args) = (do
          let arguments ← catalog.resolveAll args
          pure (factory.build arguments)) := by
        simp [Catalog.resolve, Catalog.entryOr, hentry, hfactory, harity]
      refine ((findAll_yields args).mono (fun _ => id) ?_).bind ?_
      · intro error herror
        rw [hresolve, herror]
        rfl
      · intro arguments harguments
        exact build_answers (by rw [hresolve, harguments]; rfl)

/-- The types of a list are looked up from left to right, until one of them has no codec. -/
theorem findAll_yields (types : List TypeExpr) :
    Yields catalog (findAll types) (fun codecs => catalog.resolveAll types = .ok codecs)
      (fun error => catalog.resolveAll types = .error error) := by
  cases types with
  | nil =>
      rw [findAll]
      exact .pure rfl
  | cons type types =>
      rw [findAll]
      refine ((find_answers type).mono (fun _ => id) ?_).bind ?_
      · intro error herror
        rw [Catalog.resolveAll, herror]
        rfl
      · intro codec hcodec
        refine ((findAll_yields types).mono (fun _ => id) ?_).bind ?_
        · intro error herror
          rw [Catalog.resolveAll, hcodec, herror]
          rfl
        · intro codecs hcodecs
          exact .pure (by rw [Catalog.resolveAll, hcodec, hcodecs]; rfl)
end

/-- On a registry that caches the catalog, the answer of a lookup is that of the catalog. -/
theorem Caches.codecOf_eq {registry : Registry} (hregistry : registry.Caches catalog)
    (type : TypeExpr) : registry.codecOf type = catalog.resolve type := by
  have hfind := find_answers catalog type registry hregistry
  unfold codecOf lookup
  cases hresult : find type registry with
  | ok codec after =>
      rw [hresult] at hfind
      exact hfind.2.symm
  | error error after =>
      rw [hresult] at hfind
      exact hfind.2.symm

end Registry

end Switchboard
