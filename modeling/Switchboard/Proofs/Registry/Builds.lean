import Switchboard.Codec.Product
import Switchboard.Proofs.Registry.History
import Switchboard.Proofs.Registry.Traversal

/-!
# What is built between two registrations

`Registry.Sequel` relates a registry to what lookups can make of it. Every action that does nothing
but look codecs up keeps the relation, and compiling a method is such an action. The main result,
`Registry.composites_built_once`, says that no type is built twice between two registrations, which
types a lookup builds and in which order, and that a lookup that failed has nothing left to build.
-/

namespace Switchboard

namespace Registry

/-- `registry.Sequel after` says that `after` may come about from `registry` by lookups alone. -/
def Sequel (registry after : Registry) : Prop :=
  ∃ added, after = registry.remember added ∧ registry.Adds added

/-- `LooksUp action` says that the action does nothing to a registry but look codecs up, so that it
keeps whatever every lookup keeps. -/
def LooksUp {ε α : Type} (action : EStateM ε Registry α) : Prop :=
  ∀ kept : Registry → Prop,
    (∀ type registry, kept registry → kept (Action.left (find type registry))) →
    ∀ registry, kept registry → kept (Action.left (action registry))

@[simp]
theorem remember_nil (registry : Registry) : registry.remember [] = registry := by
  simp [remember]

theorem remember_injective {registry : Registry} {more others : List Build}
    (h : registry.remember more = registry.remember others) : more = others :=
  List.append_cancel_left (congrArg Registry.builds h)

theorem sequel_refl (registry : Registry) : registry.Sequel registry :=
  ⟨[], registry.remember_nil.symm, registry.adds_nil⟩

namespace LooksUp

variable {ε δ α β : Type}

theorem pure (a : α) : LooksUp (Pure.pure a : EStateM ε Registry α) :=
  fun _ _ _ hregistry => hregistry

theorem throw (error : ε) : LooksUp (MonadExcept.throw error : EStateM ε Registry α) :=
  fun _ _ _ hregistry => hregistry

theorem ofExcept (result : Except ε α) :
    LooksUp (MonadExcept.ofExcept result : EStateM ε Registry α) := by
  cases result with
  | ok a => exact .pure a
  | error error => exact .throw error

theorem bind {action : EStateM ε Registry α} {next : α → EStateM ε Registry β}
    (h : LooksUp action) (hnext : ∀ a, LooksUp (next a)) : LooksUp (action >>= next) := by
  intro kept hfind registry hregistry
  have haction := h kept hfind registry hregistry
  cases hresult : action registry with
  | ok a after =>
      rw [Action.bind_of_ok hresult]
      rw [hresult] at haction
      exact hnext a kept hfind after haction
  | error error after =>
      rw [Action.bind_of_error hresult]
      rwa [hresult] at haction

theorem throw_bind (error : ε) (next : α → EStateM ε Registry β) :
    LooksUp (MonadExcept.throw error >>= next) :=
  fun _ _ _ hregistry => hregistry

theorem adapt {action : EStateM ε Registry α} (h : LooksUp action) (rename : ε → δ) :
    LooksUp (action.adaptExcept rename) := by
  intro kept hfind registry hregistry
  have haction := h kept hfind registry hregistry
  cases hresult : action registry with
  | ok a after =>
      rw [Action.adaptExcept_of_ok hresult]
      rwa [hresult] at haction
  | error error after =>
      rw [Action.adaptExcept_of_error hresult]
      rwa [hresult] at haction

theorem find (type : TypeExpr) : LooksUp (Registry.find type) :=
  fun _ hfind registry hregistry => hfind type registry hregistry

/-- A sequel stays one, even when the action fails half way. -/
theorem sequel {action : EStateM ε Registry α} (h : LooksUp action) {registry current : Registry}
    (hcurrent : registry.Sequel current) : registry.Sequel (Action.left (action current)) := by
  refine h registry.Sequel ?_ current hcurrent
  rintro type _ ⟨added, rfl, hadds⟩
  obtain ⟨fresh, hafter, hall, _⟩ := (find_builds registry type hadds).grows
  exact ⟨added ++ fresh, hafter, hall⟩

end LooksUp

end Registry

section Compile

open Registry

variable {host : Host}

theorem Signature.codecFor_looksUp (method : String) (type : TypeExpr) :
    LooksUp (codecFor method type) := (LooksUp.find type).adapt _

theorem Signature.bindParameters_looksUp (method : String) (bindings : TypeExpr.Bindings)
    (parameters : List Parameter) : LooksUp (bindParameters method bindings parameters) := by
  induction parameters with
  | nil => exact .pure []
  | cons parameter parameters ih =>
      exact (LooksUp.ofExcept _).bind fun type => (codecFor_looksUp method type).bind fun _ =>
        ih.bind fun _ => .pure _

theorem Signature.complete_looksUp (method : String) (parameters : List BoundParameter)
    (shape : ResultShape) : LooksUp (complete method parameters shape) := by
  have hresult : ∀ type, LooksUp (resultFor method type) := fun type =>
    (codecFor_looksUp method type).bind fun _ => .pure _
  rcases shape with (_ | type) | _ | type
  · exact .pure _
  · exact (hresult type).bind fun _ => .pure _
  · exact .pure _
  · exact (hresult type).bind fun _ => .pure _

theorem Signature.resolve_looksUp (method : Method host) (generics : List TypeExpr) :
    LooksUp (resolve method generics) := by
  unfold resolve
  by_cases harity : method.generics.length = generics.length
  · simp only [harity, ne_eq, not_true_eq_false, if_false]
    exact (LooksUp.ofExcept _).bind fun _ => (LooksUp.ofExcept _).bind fun _ =>
      (bindParameters_looksUp _ _ _).bind fun _ => (complete_looksUp _ _ _).bind fun _ => .pure _
  · simp only [harity, ne_eq, not_false_eq_true, if_true]
    exact .throw_bind _ _

/-- Compiling does nothing to a registry but look codecs up. -/
theorem Service.invokerFor_looksUp (service : Service host) (path : ServicePath)
    (generics : List TypeExpr) : LooksUp (service.invokerFor path generics) :=
  (LooksUp.ofExcept _).bind fun _ => (Signature.resolve_looksUp _ generics).bind fun _ => .pure _

/-- Compiling leaves behind what its lookups do. -/
theorem Service.compile_snd (service : Service host) (path : ServicePath)
    (generics : List TypeExpr) (registry : Registry) :
    (service.compile path generics registry).2 =
      Action.left (service.invokerFor path generics registry) := by
  unfold compile
  cases service.invokerFor path generics registry <;> rfl

end Compile

namespace Registry

/-- A lookup says how the search for a codec came out and which builds it left behind. -/
theorem lookup_eq (type : TypeExpr) (registry : Registry) :
    lookup type registry =
      (⟨Action.outcome (find type registry),
        (newBuilds registry (Action.left (find type registry))).map Build.event⟩,
        Action.left (find type registry)) := by
  unfold lookup
  cases find type registry <;> rfl

/-- A step that registers nothing keeps what lookups can make of a registry. -/
theorem Step.apply_sequel {registry current : Registry} (h : registry.Sequel current) {step : Step}
    (hstep : step.registrations = []) : registry.Sequel (step.apply current) := by
  cases step with
  | lookup type =>
      rw [apply, lookup_eq]
      exact (LooksUp.find type).sequel h
  | contains type =>
      show registry.Sequel (Registry.lookup type current).2
      rw [lookup_eq]
      exact (LooksUp.find type).sequel h
  | compile service path generics =>
      rw [apply, Service.compile_snd]
      exact (service.invokerFor_looksUp path generics).sequel h
  | registerStandard =>
      rw [registrations, standardRegistrations, List.append_eq_nil_iff] at hstep
      cases hstep.2
  | _ => cases hstep

/-- So do any number of them. -/
theorem run_sequel {registry current : Registry} (h : registry.Sequel current) {steps : List Step}
    (hsteps : registered steps = []) : registry.Sequel (run steps current) := by
  induction steps generalizing current with
  | nil => exact h
  | cons step steps ih =>
      obtain ⟨hstep, hrest⟩ : step.registrations = [] ∧ registered steps = [] :=
        List.append_eq_nil_iff.1 hsteps
      exact ih (Step.apply_sequel h hstep) hrest

/-- `registry.Looked type fresh` says that a lookup of `type` builds `fresh`: what the walk comes
to, each type once and where the walk comes to it first. It reports each of them by one event. -/
structure Looked (registry : Registry) (type : TypeExpr) (fresh : List Build) : Prop where
  state_eq : (lookup type registry).2 = registry.remember fresh
  types_eq : fresh.map Build.type = (registry.walk type).types.eraseDups
  log_eq : (lookup type registry).1.log = fresh.map fun build => ⟨.trace, "built codec",
    [("ty", build.type.display), ("value", build.codec.valueType.name)]⟩
  error_iff : ∀ error, (lookup type registry).1.value = .error error ↔
    (registry.walk type).error = some error

theorem newBuilds_remember (registry : Registry) (fresh : List Build) :
    newBuilds registry (registry.remember fresh) = fresh := by
  simp [newBuilds, remember]

theorem exists_looked (registry : Registry) (type : TypeExpr) :
    ∃ fresh, registry.Looked type fresh := by
  have hbuilds := find_builds registry type registry.adds_nil
  rw [remember_nil] at hbuilds
  obtain ⟨fresh, hleft, _, htypes⟩ := hbuilds.grows
  rw [List.nil_append] at hleft
  refine ⟨fresh, ?_, htypes.trans (unseen_eq_eraseDups _), ?_, ?_⟩
  · rw [lookup_eq, hleft]
  · rw [lookup_eq, hleft, newBuilds_remember]
    rfl
  · rw [lookup_eq]
    exact hbuilds.error_iff

/-- After a lookup that failed, nothing was stored for its type, and nothing is left to build for
it. -/
theorem lookup_of_failed {registry : Registry} {type : TypeExpr} {error : LookupError}
    (herror : (registry.walk type).error = some error) {added : List Build}
    (hadds : registry.Adds added) (hwalked : (registry.walk type).types ⊆ added.map Build.type) :
    (registry.remember added).known? type = none ∧
      lookup type (registry.remember added) = (⟨.error error, []⟩, registry.remember added) := by
  have hunknown : registry.known? type = none := by
    cases hknown : registry.known? type with
    | none => rfl
    | some codec =>
        rw [walk_of_known hknown] at herror
        exact nomatch herror
  have hnever : type ∉ added.map Build.type := by
    intro hmem
    obtain ⟨build, hbuild, rfl⟩ := List.mem_map.1 hmem
    rw [(hadds.passes build hbuild).error_eq] at herror
    exact nomatch herror
  refine ⟨known?_remember_eq_none_iff.2 ⟨hunknown, hnever⟩, ?_⟩
  have hbuilds := find_builds registry type hadds
  obtain ⟨fresh, hleft, _, htypes⟩ := hbuilds.grows
  have hnone : fresh = [] := by
    rw [unseen_of_subset hwalked] at htypes
    exact List.map_eq_nil_iff.1 htypes
  subst hnone
  rw [lookup_eq, (hbuilds.error_iff error).2 herror, hleft, List.append_nil]
  simp [newBuilds]

/-- `registry.Stays type fresh` says what becomes of the builds `fresh` of a lookup of `type` until
the next registration: they stay, and if the lookup failed, then `type` is not stored, and another
lookup of it builds nothing and fails alike. -/
def Stays (registry : Registry) (type : TypeExpr) (fresh : List Build) : Prop :=
  ∀ more, registered more = [] →
    let last := run more (lookup type registry).2
    (∃ others, last = registry.remember (fresh ++ others)) ∧
      ∀ error, (lookup type registry).1.value = .error error →
        last.known? type = none ∧ lookup type last = (⟨.error error, []⟩, last)

theorem Looked.stays {registry : Registry} {type : TypeExpr} {fresh : List Build}
    (h : registry.Looked type fresh) : registry.Stays type fresh := by
  intro more hmore last
  have hlookup : registry.Sequel (lookup type registry).2 := by
    rw [lookup_eq]
    exact (LooksUp.find type).sequel registry.sequel_refl
  obtain ⟨all, hall, hadds⟩ := run_sequel hlookup hmore
  -- The same steps seen from behind the lookup, which only add to what it has built.
  obtain ⟨others, hothers, _⟩ := run_sequel (lookup type registry).2.sequel_refl hmore
  rw [h.state_eq, remember_remember, ← h.state_eq] at hothers
  refine ⟨⟨others, hothers⟩, ?_⟩
  intro error herror
  obtain rfl : all = fresh ++ others := remember_injective (hall.symm.trans hothers)
  have hwalked : (registry.walk type).types ⊆ (fresh ++ others).map Build.type := by
    intro inner hmem
    rw [List.map_append, h.types_eq]
    exact List.mem_append_left _ (List.mem_eraseDups.2 hmem)
  have hfailed := lookup_of_failed ((h.error_iff error).1 herror) hadds hwalked
  rwa [← hothers] at hfailed

/-- `registry.BuildsOnce steps added` says that some steps have built `added`, no type twice, and
what a lookup behind them builds. -/
structure BuildsOnce (registry : Registry) (steps : List Step) (added : List Build) : Prop where
  run_eq : run steps registry = registry.remember added
  adds : registry.Adds added
  looked : ∀ type, ∃ fresh, (run steps registry).Looked type fresh ∧
    (run steps registry).Stays type fresh

/-- Between two registrations no type is built twice. A lookup builds what its walk comes to, each
type once and where the walk comes to it first, and fails as the walk does. What it has built stays,
and a type for which it failed is never stored. -/
theorem composites_built_once (registry : Registry) (steps : List Step)
    (h : registered steps = []) : ∃ added, registry.BuildsOnce steps added := by
  obtain ⟨added, hadded, hadds⟩ := run_sequel registry.sequel_refl h
  refine ⟨added, hadded, hadds, ?_⟩
  intro type
  obtain ⟨fresh, hlooked⟩ := (run steps registry).exists_looked type
  exact ⟨fresh, hlooked, hlooked.stays⟩

/-- Builds the codecs of pairs. -/
def pairFactory : Factory where
  arity := 2
  build
    | first :: second :: _ => (Codec.pair first second).erase .pair
    | _ => Codec.unit.erase .unit

/-- Bytes, and pairs of anything. -/
def pairTable : Registry :=
  run [.registerUntyped (.base "u8") ((Codec.word UInt8).erase .u8),
    .registerGeneric "Pair" pairFactory] empty

/-- A pair of bytes. -/
def bytePair : TypeExpr := .named "Pair" [.base "u8", .base "u8"]

/-- A lookup that fails behind the pair of bytes leaves it to the next one, which builds no more
than the pair of two of them. -/
theorem composites_built_once_pairs :
    let steps : List Step := [.contains (.named "Pair" [bytePair, .base "id"]),
      .lookup (.named "Pair" [bytePair, bytePair])]
    registered steps = [] ∧ (∃ added, pairTable.BuildsOnce steps added) ∧
      (run steps pairTable).builds.map Build.type =
        [bytePair, .named "Pair" [bytePair, bytePair]] ∧
      (lookup bytePair pairTable).1.log = [⟨.trace, "built codec",
        [("ty", "Pair<u8, u8>"), ("value", ValueType.pair.name)]⟩] := by
  intro steps
  have hsteps : registered steps = [] := rfl
  exact ⟨hsteps, composites_built_once pairTable steps hsteps, by decide, by decide⟩

end Registry

end Switchboard
