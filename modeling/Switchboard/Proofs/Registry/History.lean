import Switchboard.Proofs.Invoker.Compile
import Switchboard.Registry.Standard

/-!
# The history of a registry

A `Registry.Step` is one thing that a caller can do to a registry: register something, look a type
up, or compile a method. The main result, `Registry.codecOf_run_eq_resolve`, says that after any
steps the answer for a type is the one that the last registrations give, so that neither the lookups
in between nor the order of registrations for different types can be told from it.
-/

namespace Switchboard

/-- A `Registration` gives a type its codec, or the instances of a parameterised type their
factory. -/
inductive Registration where
  | entry (type : TypeExpr) (codec : ValueCodec)
  | factory (name : String) (factory : Factory)

namespace Registration

/-- What a registration is for. Of two registrations for the same only the later one counts. -/
inductive Key where
  | type (type : TypeExpr)
  | name (name : String)
  deriving DecidableEq

/-- What the registration is for. -/
def key : Registration → Key
  | entry type _ => .type type
  | factory name _ => .name name

/-- The codec that the registration gives `type`, if it is for `type`. -/
def codecFor (type : TypeExpr) : Registration → Option ValueCodec
  | entry registered codec => if registered = type then some codec else none
  | factory _ _ => none

/-- The factory that the registration gives `name`, if it is for `name`. -/
def factoryFor (name : String) : Registration → Option Factory
  | entry _ _ => none
  | factory registered maker => if registered = name then some maker else none

/-- Makes the registration. -/
def apply (registration : Registration) (registry : Registry) : Registry :=
  match registration with
  | entry type codec => registry.register type codec
  | factory name maker => registry.registerGeneric name maker

end Registration

/-- The catalog of registrations made one after the other: the last one for a type or a name is the
one that counts. -/
def Catalog.of (registrations : List Registration) : Catalog where
  entry type := registrations.reverse.findSome? (Registration.codecFor type)
  factory name := registrations.reverse.findSome? (Registration.factoryFor name)

/-- The catalog of no registrations is that of the empty registry. -/
theorem Registry.empty_caches : Registry.empty.Caches (.of []) where
  catalog_eq := rfl
  builds_eq := by simp [Registry.empty]

/-- A registration forgets all builds, so it leaves none behind that it made wrong. -/
theorem Registration.apply_caches {made : List Registration} {registry : Registry}
    (hregistry : registry.Caches (.of made)) (registration : Registration) :
    (registration.apply registry).Caches (.of (made ++ [registration])) := by
  have hentry : ∀ type, registry.entries.lookup type =
      made.reverse.findSome? (codecFor type) :=
    congrFun (congrArg Catalog.entry hregistry.catalog_eq)
  have hfactory : ∀ name, registry.factories.lookup name =
      made.reverse.findSome? (factoryFor name) :=
    congrFun (congrArg Catalog.factory hregistry.catalog_eq)
  -- A registration leaves no builds behind, so only the catalogs have to be compared.
  cases registration with
  | entry type codec =>
      refine ⟨Catalog.ext ?_ ?_, nofun⟩
      · funext wanted
        show ((type, codec) :: registry.entries).lookup wanted =
          (made ++ [entry type codec]).reverse.findSome? (codecFor wanted)
        by_cases hsame : wanted = type
        · simp [codecFor, hsame]
        · simp [codecFor, Ne.symm hsame, List.lookup_cons, beq_false_of_ne hsame, hentry]
      · funext name
        show registry.factories.lookup name =
          (made ++ [entry type codec]).reverse.findSome? (factoryFor name)
        simp [List.findSome?_cons, factoryFor, hfactory]
  | factory name maker =>
      refine ⟨Catalog.ext ?_ ?_, nofun⟩
      · funext type
        show registry.entries.lookup type =
          (made ++ [factory name maker]).reverse.findSome? (codecFor type)
        simp [List.findSome?_cons, codecFor, hentry]
      · funext wanted
        show ((name, maker) :: registry.factories).lookup wanted =
          (made ++ [factory name maker]).reverse.findSome? (factoryFor wanted)
        by_cases hsame : wanted = name
        · simp [factoryFor, hsame]
        · simp [factoryFor, Ne.symm hsame, List.lookup_cons, beq_false_of_ne hsame, hfactory]

/-- Several made, one after the other. -/
theorem Registration.foldl_apply_caches {made : List Registration} {registry : Registry}
    (hregistry : registry.Caches (.of made)) (more : List Registration) :
    (more.foldl (fun registry registration => registration.apply registry) registry).Caches
      (.of (made ++ more)) := by
  induction more generalizing made registry with
  | nil => simpa using hregistry
  | cons registration more ih =>
      have hnext := ih (apply_caches hregistry registration)
      simpa using hnext

namespace Registry

/-- What a lookup leaves behind answers as before. -/
theorem lookup_caches {catalog : Catalog} {registry : Registry}
    (hregistry : registry.Caches catalog) (type : TypeExpr) :
    (lookup type registry).2.Caches catalog := by
  have hfind := find_answers catalog type registry hregistry
  unfold lookup
  cases hresult : find type registry with
  | ok codec after =>
      rw [hresult] at hfind
      exact hfind.1
  | error error after =>
      rw [hresult] at hfind
      exact hfind.1

/-- One thing that a caller can do to a registry. Lookups and compilations count whether or not they
succeed. -/
inductive Step : Type 1 where
  | register {α : Type} (type : TypeExpr) (embedding : Embedding α) (codec : Codec α)
  | registerUntyped (type : TypeExpr) (codec : ValueCodec)
  | registerGeneric (name : String) (factory : Factory)
  | registerStandard
  | lookup (type : TypeExpr)
  | contains (type : TypeExpr)
  | compile {host : Host} (service : Service host) (path : ServicePath) (generics : List TypeExpr)

/-- The registrations of the standard codecs. -/
def standardRegistrations : List Registration :=
  standardEntries.map (fun entry => .entry (.base entry.1) entry.2) ++ [.factory "Vec" .list]

namespace Step

/-- The registry after the step. -/
def apply (step : Step) (registry : Registry) : Registry :=
  match step with
  | register type embedding codec => registry.register type (codec.erase embedding)
  | registerUntyped type codec => registry.register type codec
  | registerGeneric name factory => registry.registerGeneric name factory
  | registerStandard => registry.registerStandard
  | lookup type => (Registry.lookup type registry).2
  | contains type => (Registry.contains type registry).2
  | compile service path generics => (service.compile path generics registry).2

/-- What the step registers. -/
def registrations : Step → List Registration
  | register type embedding codec => [.entry type (codec.erase embedding)]
  | registerUntyped type codec => [.entry type codec]
  | registerGeneric name factory => [.factory name factory]
  | registerStandard => standardRegistrations
  | lookup _ | contains _ | compile _ _ _ => []

/-- Every step keeps the registry in line with the registrations made so far. -/
theorem apply_caches {made : List Registration} {registry : Registry}
    (hregistry : registry.Caches (.of made)) (step : Step) :
    (step.apply registry).Caches (.of (made ++ step.registrations)) := by
  cases step with
  | register type embedding codec => exact Registration.apply_caches hregistry (.entry type _)
  | registerUntyped type codec => exact Registration.apply_caches hregistry (.entry type codec)
  | registerGeneric name factory =>
      exact Registration.apply_caches hregistry (.factory name factory)
  | registerStandard =>
      have hall := Registration.foldl_apply_caches hregistry standardRegistrations
      rw [standardRegistrations, List.foldl_append, List.foldl_map] at hall
      exact hall
  | lookup type =>
      rw [registrations, List.append_nil]
      exact lookup_caches hregistry type
  | contains type =>
      rw [registrations, List.append_nil]
      exact lookup_caches hregistry type
  | compile service path generics =>
      rw [registrations, List.append_nil]
      exact (service.compile_spec hregistry path generics).1

end Step

/-- The registry after some steps. -/
def run (steps : List Step) (registry : Registry) : Registry :=
  steps.foldl (fun registry step => step.apply registry) registry

/-- What was registered in some steps, in order. -/
def registered (steps : List Step) : List Registration := steps.flatMap Step.registrations

theorem run_caches_of {made : List Registration} {registry : Registry}
    (hregistry : registry.Caches (.of made)) (steps : List Step) :
    (run steps registry).Caches (.of (made ++ registered steps)) := by
  induction steps generalizing made registry with
  | nil => simpa [run, registered] using hregistry
  | cons step steps ih =>
      have hrest := ih (Step.apply_caches hregistry step)
      simpa [run, registered] using hrest

/-- Whatever happened to a registry, it is in line with the registrations that were made. -/
theorem run_caches (steps : List Step) :
    (run steps empty).Caches (.of (registered steps)) := by
  simpa using run_caches_of empty_caches steps

end Registry

theorem Registration.codecFor_of_key_ne {registration : Registration} {type : TypeExpr}
    (h : registration.key ≠ .type type) : registration.codecFor type = none := by
  cases registration with
  | entry registered codec =>
      have hother : registered ≠ type := by simpa [key] using h
      simp [codecFor, hother]
  | factory name maker => rfl

theorem Registration.factoryFor_of_key_ne {registration : Registration} {name : String}
    (h : registration.key ≠ .name name) : registration.factoryFor name = none := by
  cases registration with
  | entry type codec => rfl
  | factory registered maker =>
      have hother : registered ≠ name := by simpa [key] using h
      simp [factoryFor, hother]

/-- Registrations for other things do not matter to a search for one. -/
theorem findSome?_filter_key {α : Type} {key : Registration.Key} {find : Registration → Option α}
    (hfind : ∀ registration, registration.key ≠ key → find registration = none)
    (registrations : List Registration) :
    (registrations.filter (·.key = key)).findSome? find = registrations.findSome? find := by
  induction registrations with
  | nil => rfl
  | cons registration registrations ih =>
      by_cases hkey : registration.key = key
      · simp [hkey, List.findSome?_cons, ih]
      · simp [hkey, ih, hfind registration hkey]

/-- The last registration for something is found among the registrations for it. -/
theorem findSome?_reverse_congr {α : Type} {key : Registration.Key}
    {find : Registration → Option α}
    (hfind : ∀ registration, registration.key ≠ key → find registration = none)
    {registrations others : List Registration}
    (h : registrations.filter (·.key = key) = others.filter (·.key = key)) :
    registrations.reverse.findSome? find = others.reverse.findSome? find := by
  rw [← findSome?_filter_key hfind, List.filter_reverse, h, ← List.filter_reverse,
    findSome?_filter_key hfind]

/-- Two lists of registrations that agree for each type and each name make the same catalog. -/
theorem Catalog.of_eq_of_filter_eq {registrations others : List Registration}
    (h : ∀ key, registrations.filter (·.key = key) = others.filter (·.key = key)) :
    Catalog.of registrations = Catalog.of others := by
  refine Catalog.ext ?_ ?_
  · funext type
    exact findSome?_reverse_congr (fun _ => Registration.codecFor_of_key_ne) (h (.type type))
  · funext name
    exact findSome?_reverse_congr (fun _ => Registration.factoryFor_of_key_ne) (h (.name name))

namespace Registry

/-- After any steps, the answer for a type is the one that the last registrations give. Other steps
with the same registrations for each type and each name lead to the same answer, in whichever order
they are made for different ones and whatever is looked up in between. -/
theorem codecOf_run_eq_resolve (steps : List Step) (type : TypeExpr) :
    (run steps empty).codecOf type = (Catalog.of (registered steps)).resolve type ∧
      ∀ others : List Step,
        (∀ key, (registered others).filter (·.key = key) =
          (registered steps).filter (·.key = key)) →
        (run others empty).codecOf type = (run steps empty).codecOf type := by
  have hanswer := (run_caches steps).codecOf_eq type
  refine ⟨hanswer, ?_⟩
  intro others hsame
  rw [hanswer, (run_caches others).codecOf_eq type, Catalog.of_eq_of_filter_eq hsame]

/-- A list codec that was built before the codec of its elements was replaced is not used again. -/
theorem codecOf_run_rebuilt :
    (run [.registerGeneric "Vec" .list,
        .registerUntyped (.base "id") ((Codec.word Int32).erase .i32),
        .lookup (.named "Vec" [.base "id"]),
        .registerUntyped (.base "id") ((Codec.word UInt32).erase .u32)] empty).codecOf
          (.named "Vec" [.base "id"]) =
      (run [.registerUntyped (.base "id") ((Codec.word Int32).erase .i32),
        .registerUntyped (.base "id") ((Codec.word UInt32).erase .u32),
        .registerGeneric "Vec" .list] empty).codecOf (.named "Vec" [.base "id"]) := by
  refine (codecOf_run_eq_resolve _ _).2 _ ?_
  -- The two lists hold the same registrations for each key, in another order.
  intro key
  cases key with
  | type type =>
      by_cases htype : TypeExpr.base "id" = type <;>
        simp [registered, Step.registrations, Registration.key, htype]
  | name name =>
      simp [registered, Step.registrations, List.filter_cons, Registration.key]

end Registry

end Switchboard
