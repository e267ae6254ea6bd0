import Switchboard.Proofs.Invoker.Acceptance
import Switchboard.Proofs.TypeExpr.Instance

/-!
# Instances of generic methods

`Method.Instantiates` says what a generic method is when its generics stand for given types: a
method without generics, carried out by the same handler. `Service.replaceMethod` is a service with
one method replaced. The main result, `Service.compile_replaceMethod`, says that the instance in the
place of the generic method compiles to the same invoker or with the same error, except that the
handler is not told the types.
-/

namespace Switchboard

variable {host : Host}

/-- `Parameter.Instantiates names types parameter result` says that `result` is `parameter` with its
type instantiated. -/
structure Parameter.Instantiates (names : List String) (types : List TypeExpr)
    (parameter result : Parameter) : Prop where
  name_eq : result.name = parameter.name
  type : TypeExpr.Instantiates names types parameter.type result.type
  way_eq : result.way = parameter.way

/-- `method.Instantiates types result` says that `result` is `method` without generics, for the case
that they stand for `types`. -/
structure Method.Instantiates (method : Method host) (types : List TypeExpr)
    (result : Method host) : Prop where
  name_eq : result.name = method.name
  parameters : List.Forall₂ (Parameter.Instantiates method.generics types) method.parameters
    result.parameters
  returnType : TypeExpr.Instantiates method.generics types method.returnType result.returnType
  generics_eq : result.generics = []
  remoting_eq : result.remoting = method.remoting
  handler_eq : result.handler = method.handler

/-- A parameter with the generics in its type replaced. -/
def Parameter.substitute (bindings : TypeExpr.Bindings) (parameter : Parameter) : Parameter :=
  { parameter with type := parameter.type.substitute bindings }

/-- The instance of a method for given types. -/
def Method.instantiate (method : Method host) (types : List TypeExpr) : Method host where
  name := method.name
  parameters := method.parameters.map (Parameter.substitute (method.bindings types))
  returnType := method.resolvedReturn types
  generics := []
  remoting := method.remoting
  handler := method.handler

theorem Parameter.Instantiates.substitute_eq {names : List String} {types : List TypeExpr}
    {parameter result : Parameter} (h : Parameter.Instantiates names types parameter result) :
    parameter.substitute (.ofLists names types) = result := by
  obtain ⟨name, type, way⟩ := result
  obtain ⟨rfl, htype, rfl⟩ := h
  rw [substitute, TypeExpr.substitute_of_instantiates htype]

/-- A method has one instance for given types. -/
theorem Method.Instantiates.instantiate_eq {method result : Method host} {types : List TypeExpr}
    (h : method.Instantiates types result) : method.instantiate types = result := by
  have hparameters : method.parameters.map (Parameter.substitute (method.bindings types)) =
      result.parameters := by
    rw [← List.forall₂_eq_eq_eq, List.forall₂_map_left_iff]
    exact h.parameters.imp fun _ _ hparameter => hparameter.substitute_eq
  have hreturn : method.resolvedReturn types = result.returnType :=
    TypeExpr.substitute_of_instantiates h.returnType
  rw [instantiate, hparameters, hreturn, ← h.name_eq, ← h.generics_eq, ← h.remoting_eq,
    ← h.handler_eq]

/-- A method has an instance for as many types as it has generics, and no other one. -/
theorem Method.instantiates_iff {method result : Method host} {types : List TypeExpr}
    (h : method.generics.length = types.length) :
    method.Instantiates types result ↔ method.instantiate types = result := by
  refine ⟨Instantiates.instantiate_eq, ?_⟩
  rintro rfl
  have hparameters : ∀ parameter, Parameter.Instantiates method.generics types parameter
      (parameter.substitute (method.bindings types)) := fun parameter =>
    ⟨rfl, TypeExpr.instantiates_substitute h parameter.type, rfl⟩
  exact {
    name_eq := rfl
    parameters := List.forall₂_map_right_iff.2
      (List.forall₂_same.2 fun parameter _ => hparameters parameter)
    returnType := TypeExpr.instantiates_substitute h method.returnType
    generics_eq := rfl
    remoting_eq := rfl
    handler_eq := rfl }

namespace Signature

/-- The signature without the types that the generics stand for. -/
def withoutGenerics (signature : Signature) : Signature := { signature with generics := [] }

theorem resolveType_substitute (name : String) (bindings : TypeExpr.Bindings) (type : TypeExpr) :
    resolveType name (.ofLists [] []) (type.substitute bindings) =
      resolveType name bindings type := by
  simp only [resolveType, TypeExpr.substitute_ofLists_nil]

theorem bindParameters_substitute (name : String) (bindings : TypeExpr.Bindings)
    (parameters : List Parameter) :
    bindParameters name (.ofLists [] []) (parameters.map (Parameter.substitute bindings)) =
      bindParameters name bindings parameters := by
  induction parameters with
  | nil => rfl
  | cons parameter parameters ih =>
      simp only [List.map_cons, bindParameters, ih, Parameter.substitute, resolveType_substitute]

theorem resultShape_substitute (remoting : Remoting) (bindings : TypeExpr.Bindings)
    (parameters : List Parameter) (returnType : TypeExpr) :
    ResultShape.of remoting (parameters.map (Parameter.substitute bindings)) returnType =
      ResultShape.of remoting parameters returnType := by
  simp only [ResultShape.of, List.any_map]
  rfl

/-- The instance of a method resolves as the method does for the same types. -/
theorem resolve_instantiate {method : Method host} {types : List TypeExpr}
    (h : method.generics.length = types.length) :
    resolve (method.instantiate types) [] = withoutGenerics <$> resolve method types := by
  unfold resolve
  simp only [Method.instantiate, List.length_nil, ne_eq, not_true_eq_false, if_false, h,
    Method.resolvedReturn, resolveType_substitute, resultShape_substitute,
    bindParameters_substitute, Method.bindings, map_bind, map_pure]
  rfl

end Signature

/-- The invoker whose handler is not told the types that the generics stand for. -/
def Invoker.withoutGenerics (invoker : Invoker host) : Invoker host :=
  { invoker with signature := invoker.signature.withoutGenerics }

/-- The service in which, at the node that accessor names lead to, `method` is in the place of the
method with its name. -/
def Service.replaceMethod (method : Method host) : List String → Service host → Service host
  | [], service =>
      { service with methods := service.methods.map fun other =>
          if other.name = method.name then method else other }
  | name :: names, service =>
      { service with subservices := service.subservices.map fun subservice =>
          if subservice.name = name then
            { subservice with service := replaceMethod method names subservice.service }
          else subservice }

/-- The sub-service with a method of its service, or of one below, replaced. -/
def Subservice.replaceMethod (method : Method host) (names : List String)
    (subservice : Subservice host) : Subservice host :=
  { subservice with service := subservice.service.replaceMethod method names }

namespace Service

variable {service node : Service host} {method : Method host}

theorem replaceMethod_name (names : List String) :
    (service.replaceMethod method names).name = service.name := by
  cases names <;> rfl

theorem replaceMethod_serviceType (names : List String) :
    (service.replaceMethod method names).serviceType = service.serviceType := by
  cases names <;> rfl

/-- A search among items of which the wanted ones were replaced finds a replacement. -/
theorem find?_map_replace {α : Type} (wanted : α → Prop) [DecidablePred wanted] (replace : α → α)
    (h : ∀ item, wanted item → wanted (replace item)) (items : List α) :
    (items.map fun item => if wanted item then replace item else item).find?
        (fun item => wanted item) = (items.find? fun item => wanted item).map replace := by
  induction items with
  | nil => rfl
  | cons item items ih =>
      by_cases hitem : wanted item
      · simp [hitem, h item hitem]
      · simp [hitem, ih]

theorem method?_replaceMethod {other : Method host} (h : node.method? method.name = some other) :
    (node.replaceMethod method []).method? method.name = some method := by
  refine (find?_map_replace (fun other : Method host => other.name = method.name)
    (fun _ => method) (fun _ _ => rfl) node.methods).trans ?_
  show (node.method? method.name).map (fun _ => method) = some method
  rw [h]
  rfl

theorem subservice?_replaceMethod {name : String} {subservice : Subservice host}
    (h : node.subservice? name = some subservice) (names : List String) :
    (node.replaceMethod method (name :: names)).subservice? name =
      some (subservice.replaceMethod method names) := by
  refine (find?_map_replace (fun other : Subservice host => other.name = name)
    (Subservice.replaceMethod method names) (fun _ hname => hname) node.subservices).trans ?_
  show (node.subservice? name).map _ = some (subservice.replaceMethod method names)
  rw [h]
  rfl

/-- The same accessors lead to the node with the method replaced. -/
theorem reaches_replaceMethod {names : List String} {accessors : List (Accessor host)}
    (h : service.Reaches names accessors node) :
    (service.replaceMethod method names).Reaches names accessors
      (node.replaceMethod method []) := by
  induction h with
  | here node => exact .here _
  | through name names node subservice accessors target hsubservice _ ih =>
      exact .through name names _ (subservice.replaceMethod method names) accessors _
        (subservice?_replaceMethod hsubservice names) ih

/-- The path to a method leads to the one in its place. -/
theorem locates_replaceMethod {path : ServicePath} {accessors : List (Accessor host)}
    {other : Method host} (h : service.Locates path accessors other)
    (hname : method.name = other.name) :
    (service.replaceMethod method path.subservices).Locates path accessors method := by
  obtain ⟨hservice, node, hreaches, hmethod⟩ := h
  have hpath : other.name = path.method := by
    unfold method? at hmethod
    simpa using List.find?_some hmethod
  refine ⟨by rw [replaceMethod_name, hservice], _, reaches_replaceMethod hreaches, ?_⟩
  rw [← hpath, ← hname] at hmethod ⊢
  exact method?_replaceMethod hmethod

variable {path : ServicePath} {accessors : List (Accessor host)} {types : List TypeExpr}

theorem invokerFor_replaceMethod (hlocates : service.Locates path accessors method)
    (harity : method.generics.length = types.length) :
    (service.replaceMethod (method.instantiate types) path.subservices).invokerFor path [] =
      Invoker.withoutGenerics <$> service.invokerFor path types := by
  have hreplaced : (service.replaceMethod (method.instantiate types) path.subservices).Locates path
      accessors (method.instantiate types) := locates_replaceMethod hlocates rfl
  unfold invokerFor
  rw [locate_of_locates hlocates, locate_of_locates hreplaced]
  simp only [MonadExcept.ofExcept, pure_bind, Signature.resolve_instantiate harity, map_bind,
    bind_map_left, map_pure, replaceMethod_serviceType, invokerName, replaceMethod_name]
  rfl

/-- The instance in the place of a generic method compiles as the generic method does for the same
types: with the same lookups and events, to the same invoker but for the types, or with the same
error. -/
theorem compile_replaceMethod (hlocates : service.Locates path accessors method)
    (harity : method.generics.length = types.length) (registry : Registry) :
    let compiled := service.compile path types registry
    (service.replaceMethod (method.instantiate types) path.subservices).compile path [] registry =
      (⟨compiled.1.value.map Invoker.withoutGenerics, compiled.1.log⟩, compiled.2) := by
  have houtcome : (service.replaceMethod (method.instantiate types) path.subservices).invokerFor
      path [] registry = EStateM.map Invoker.withoutGenerics (service.invokerFor path types)
        registry := congrFun (invokerFor_replaceMethod hlocates harity) registry
  intro compiled
  cases hresult : service.invokerFor path types registry with
  | ok invoker after =>
      simp only [EStateM.map, hresult] at houtcome
      simp only [compiled, compile, hresult, houtcome]
      rfl
  | error error after =>
      simp only [EStateM.map, hresult] at houtcome
      simp only [compiled, compile, hresult, houtcome]
      rfl

end Service

end Switchboard
