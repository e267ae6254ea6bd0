import Switchboard.Invoker.Compile
import Switchboard.Proofs.Invoker.Signature

/-!
# What a compilation gives

`Service.Locates` says which method a path names, as a chain of accessors from the root, and
`Service.FirstFault` says which failure of a compilation comes first. The main result,
`Service.compile_spec`, says that a compilation gives an invoker that is put together from the
method at the path, or the first fault, and that either way it leaves the answers of the registry as
they were.
-/

namespace Switchboard

variable {host : Host}

namespace Service

/-- `service.Reaches names accessors node` says that the accessor names `names` lead from `service`
to `node`, through the accessors `accessors`. -/
inductive Reaches : Service host → List String → List (Accessor host) → Service host → Prop where
  | here (node) : Reaches node [] [] node
  | through (name names node subservice accessors target) :
      node.subservice? name = some subservice →
      Reaches subservice.service names accessors target →
      Reaches node (name :: names) (subservice.accessor :: accessors) target

theorem descend_of_reaches {service node : Service host} {names : List String}
    {accessors : List (Accessor host)} (h : service.Reaches names accessors node) :
    service.descend names = .ok (accessors, node) := by
  induction h with
  | here node => rfl
  | through name names node subservice accessors target hsubservice _ ih =>
      simp only [descend, hsubservice, ih]
      rfl

/-- A descent ends at the node that the names lead to, or fails at the first name that leads
nowhere. -/
theorem descend_spec (service : Service host) (names : List String) :
    match service.descend names with
    | .ok (accessors, node) => service.Reaches names accessors node
    | .error name => ∃ before after accessors node, names = before ++ name :: after ∧
        service.Reaches before accessors node ∧ node.subservice? name = none := by
  induction names generalizing service with
  | nil => exact .here service
  | cons name names ih =>
      unfold descend
      cases hsubservice : service.subservice? name with
      | none => exact ⟨[], names, [], service, rfl, .here service, hsubservice⟩
      | some subservice =>
          have hrest := ih subservice.service
          cases hdescend : subservice.service.descend names with
          | ok found =>
              rw [hdescend] at hrest
              simp only [hdescend]
              exact Reaches.through name names service subservice _ _ hsubservice hrest
          | error missing =>
              rw [hdescend] at hrest
              simp only [hdescend]
              obtain ⟨before, after, accessors, node, hnames, hreaches, hmissing⟩ := hrest
              exact ⟨name :: before, after, _, node, by rw [hnames]; rfl,
                .through name before service subservice _ _ hsubservice hreaches, hmissing⟩

/-- `service.Locates path accessors method` says that `path` names `method`, and that `accessors`
lead to the object that has it. -/
def Locates (service : Service host) (path : ServicePath) (accessors : List (Accessor host))
    (method : Method host) : Prop :=
  path.service = service.name ∧ ∃ node, service.Reaches path.subservices accessors node ∧
    node.method? path.method = some method

/-- `service.FirstFault path generics codecOf error` says that `error` is the first failure in the
compilation of the method at `path`: a wrong root, the first sub-service that does not exist, a
method that does not exist, or the first fault of the method. -/
inductive FirstFault (service : Service host) (path : ServicePath) (generics : List TypeExpr)
    (codecOf : TypeExpr → Except LookupError ValueCodec) : CompileError → Prop where
  | service : path.service ≠ service.name →
      FirstFault service path generics codecOf (.invalidPath path.display path.service .service)
  | subservice (before name after accessors node) : path.service = service.name →
      path.subservices = before ++ name :: after → service.Reaches before accessors node →
      node.subservice? name = none →
      FirstFault service path generics codecOf (.invalidPath path.display name .subservice)
  | method (accessors node) : path.service = service.name →
      service.Reaches path.subservices accessors node → node.method? path.method = none →
      FirstFault service path generics codecOf (.invalidPath path.display path.method .method)
  | signature (accessors method error) : service.Locates path accessors method →
      (method.faults generics codecOf).head? = some error →
      FirstFault service path generics codecOf error

theorem locate_spec (service : Service host) (path : ServicePath) (generics : List TypeExpr)
    (codecOf : TypeExpr → Except LookupError ValueCodec) :
    match service.locate path with
    | .ok (accessors, method) => service.Locates path accessors method
    | .error error => service.FirstFault path generics codecOf error := by
  unfold locate
  by_cases hservice : path.service = service.name
  · have hspec := descend_spec service path.subservices
    simp only [hservice, ne_eq, not_true_eq_false, if_false]
    cases hdescend : service.descend path.subservices with
    | error name =>
        rw [hdescend] at hspec
        obtain ⟨before, after, accessors, node, hnames, hreaches, hmissing⟩ := hspec
        exact .subservice before name after accessors node hservice hnames hreaches hmissing
    | ok found =>
        rw [hdescend] at hspec
        obtain ⟨accessors, node⟩ := found
        simp only [Except.mapError, bind, Except.bind]
        cases hmethod : node.method? path.method with
        | none => exact .method accessors node hservice hspec hmethod
        | some method => exact ⟨hservice, node, hspec, hmethod⟩
  · simp only [hservice, ne_eq, not_false_eq_true, if_true]
    exact .service hservice

end Service

/-- `invoker.Compiles service path generics catalog accessors method` says that `invoker` carries
out the calls of `method`, which `path` names in `service`, with the codecs of `catalog` and with
the generics of the method standing for `generics`. -/
structure Invoker.Compiles (invoker : Invoker host) (service : Service host) (path : ServicePath)
    (generics : List TypeExpr) (catalog : Catalog) (accessors : List (Accessor host))
    (method : Method host) : Prop where
  locates : service.Locates path accessors method
  name_eq : invoker.name = service.invokerName path
  path_eq : invoker.path = path
  serviceType_eq : invoker.serviceType = service.serviceType
  navigation_eq : invoker.navigation = accessors
  handler_eq : invoker.handler = method.handler
  signature : invoker.signature.Describes method generics catalog

namespace Service

open Registry

theorem invokerFor_yields (catalog : Catalog) (service : Service host) (path : ServicePath)
    (generics : List TypeExpr) :
    Yields catalog (service.invokerFor path generics)
      (fun invoker => ∃ accessors method,
        invoker.Compiles service path generics catalog accessors method)
      (service.FirstFault path generics catalog.resolve) := by
  have hspec := locate_spec service path generics catalog.resolve
  unfold invokerFor
  cases hlocate : service.locate path with
  | error error =>
      rw [hlocate] at hspec
      exact .throw_bind hspec
  | ok found =>
      rw [hlocate] at hspec
      obtain ⟨accessors, method⟩ := found
      refine ((Signature.resolve_yields catalog method generics).mono (fun _ => id) ?_).bind ?_
      · intro error herror
        exact .signature accessors method error hspec herror
      · intro signature hsignature
        exact .pure ⟨accessors, method, hspec, rfl, rfl, rfl, rfl, rfl, hsignature⟩

/-- A compilation gives an invoker for the method at the path or the first fault, and the registry
that it leaves behind answers as before. -/
theorem compile_spec {catalog : Catalog} {registry : Registry} (hregistry : registry.Caches catalog)
    (service : Service host) (path : ServicePath) (generics : List TypeExpr) :
    (service.compile path generics registry).2.Caches catalog ∧
      match (service.compile path generics registry).1.value with
      | .ok invoker => ∃ accessors method,
          invoker.Compiles service path generics catalog accessors method
      | .error error => service.FirstFault path generics catalog.resolve error := by
  have hyields := invokerFor_yields catalog service path generics registry hregistry
  unfold compile
  cases hresult : service.invokerFor path generics registry with
  | ok invoker after =>
      rw [hresult] at hyields
      exact hyields
  | error error after =>
      rw [hresult] at hyields
      exact hyields

theorem exists_compiles {catalog : Catalog} {registry : Registry}
    (hregistry : registry.Caches catalog) {service : Service host} {path : ServicePath}
    {generics : List TypeExpr} {invoker : Invoker host}
    (h : (service.compile path generics registry).1.value = .ok invoker) :
    ∃ accessors method, invoker.Compiles service path generics catalog accessors method := by
  have hspec := (service.compile_spec hregistry path generics).2
  rw [h] at hspec
  exact hspec

end Service

end Switchboard
