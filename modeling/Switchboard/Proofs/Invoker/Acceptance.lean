import Switchboard.Proofs.Registry.History

/-!
# Which methods compile

`Method.Accepts` says what a method, its generic arguments and the codecs at hand must be like,
without an order of checks. The main result, `Service.compile_ok_iff`, says that on every registry
exactly the methods that a path names and that are acceptable compile, and that otherwise the error
is the first fault, which is unique.
-/

namespace Switchboard

variable {host : Host}

/-- `method.Accepts generics codecOf` says that `method` can be called with its generics standing
for the types `generics` when `codecOf` gives the codecs. -/
structure Method.Accepts (method : Method host) (generics : List TypeExpr)
    (codecOf : TypeExpr → Except LookupError ValueCodec) : Prop where
  arity : method.generics.length = generics.length
  parameters_resolved : ∀ parameter ∈ method.parameters,
    (method.bindings generics).Resolve parameter.type
  returnType_resolved : (method.bindings generics).Resolve method.returnType
  remoting_eq : method.remoting = .infer (method.resolvedReturn generics)
  inputs_only : method.remoting ≠ .direct →
    ∀ parameter ∈ method.parameters, parameter.way ≠ .ref ∧ parameter.way ≠ .out
  parameter_codecs : ∀ parameter ∈ method.parameters,
    ∃ codec, codecOf (parameter.type.substitute (method.bindings generics)) = .ok codec
  result_codec : ∀ type, method.remoting.received (method.resolvedReturn generics) = some type →
    ∃ codec, codecOf type = .ok codec

theorem Way.isResponse_eq_false_iff {way : Way} :
    way.isResponse = false ↔ way ≠ .ref ∧ way ≠ .out := by
  cases way <;> simp [isResponse]

theorem Remoting.faults_eq_nil_iff (remoting : Remoting) (parameters : List Parameter)
    (returnType : TypeExpr) :
    remoting.faults parameters returnType = [] ↔ remoting = .infer returnType ∧
      (remoting ≠ .direct →
        ∀ parameter ∈ parameters, parameter.way ≠ .ref ∧ parameter.way ≠ .out) := by
  unfold faults
  rw [List.append_eq_nil_iff]
  simp only [ite_eq_right_iff, ite_eq_left_iff, List.cons_ne_nil, imp_false, not_not, isAsync,
    decide_eq_true_eq, not_and, not_exists, Bool.not_eq_true, Way.isResponse_eq_false_iff]
  exact And.comm

theorem unboundFaults_eq_nil_iff (method : String) (bindings : TypeExpr.Bindings)
    (type : TypeExpr) : unboundFaults method bindings type = [] ↔ bindings.Resolve type := by
  rw [← TypeExpr.firstUnresolvedGeneric_substitute_eq_none_iff, unboundFaults]
  cases (type.substitute bindings).firstUnresolvedGeneric <;> simp

theorem codecFaults_eq_nil_iff (method : String)
    (codecOf : TypeExpr → Except LookupError ValueCodec) (type : TypeExpr) :
    codecFaults method codecOf type = [] ↔ ∃ codec, codecOf type = .ok codec := by
  unfold codecFaults
  cases codecOf type <;> simp

/-- A method has no fault exactly when it is acceptable. -/
theorem Method.faults_eq_nil_iff (method : Method host) (generics : List TypeExpr)
    (codecOf : TypeExpr → Except LookupError ValueCodec) :
    method.faults generics codecOf = [] ↔ method.Accepts generics codecOf := by
  have harity : (if method.generics.length = generics.length then []
      else [CompileError.genericArity method.name method.generics.length generics.length]) = [] ↔
        method.generics.length = generics.length := by simp
  simp only [faults, List.flatten_eq_nil_iff, List.forall_mem_cons, List.flatMap_eq_nil_iff,
    List.map_eq_nil_iff, Parameter.faults, List.append_eq_nil_iff, harity,
    unboundFaults_eq_nil_iff, codecFaults_eq_nil_iff, Remoting.faults_eq_nil_iff,
    Option.mem_toList]
  constructor
  · intro h
    obtain ⟨harity, hreturn, ⟨hremoting, hinputs⟩, hparameters, hresult, -⟩ := h
    exact ⟨harity, fun parameter hmem => (hparameters parameter hmem).1, hreturn, hremoting,
      hinputs, fun parameter hmem => (hparameters parameter hmem).2, hresult⟩
  · intro h
    exact ⟨h.arity, h.returnType_resolved, ⟨h.remoting_eq, h.inputs_only⟩,
      fun parameter hmem =>
        ⟨h.parameters_resolved parameter hmem, h.parameter_codecs parameter hmem⟩,
      h.result_codec, by simp⟩

namespace Service

/-- A descent fails at the first name that leads nowhere. -/
theorem descend_of_missing {service node : Service host} {before after : List String}
    {name : String} {accessors : List (Accessor host)}
    (hreaches : service.Reaches before accessors node) (hmissing : node.subservice? name = none) :
    service.descend (before ++ name :: after) = .error name := by
  induction hreaches with
  | here node => simp only [List.nil_append, descend, hmissing]
  | through first names node subservice accessors target hsubservice _ ih =>
      simp only [List.cons_append, descend, hsubservice, ih hmissing]
      rfl

theorem locate_of_locates {service : Service host} {path : ServicePath}
    {accessors : List (Accessor host)} {method : Method host}
    (h : service.Locates path accessors method) :
    service.locate path = .ok (accessors, method) := by
  obtain ⟨hservice, node, hreaches, hmethod⟩ := h
  simp [locate, hservice, descend_of_reaches hreaches, Except.mapError, bind, Except.bind, hmethod,
    pure, Except.pure]

/-- A path names one method, and leads to it in one way. -/
theorem Locates.unique {service : Service host} {path : ServicePath}
    {accessors others : List (Accessor host)} {method other : Method host}
    (h : service.Locates path accessors method) (hother : service.Locates path others other) :
    accessors = others ∧ method = other := by
  have hsame := (locate_of_locates h).symm.trans (locate_of_locates hother)
  exact Prod.mk.inj (Except.ok.inj hsame)

/-- A path that is missing something is not found, and a method that is found has the fault. -/
theorem FirstFault.spec {service : Service host} {path : ServicePath} {generics : List TypeExpr}
    {codecOf : TypeExpr → Except LookupError ValueCodec} {error : CompileError}
    (h : service.FirstFault path generics codecOf error) :
    match service.locate path with
    | .ok (_, named) => (named.faults generics codecOf).head? = some error
    | .error missing => missing = error := by
  cases h with
  | service hservice =>
      simp only [locate, hservice, ne_eq, not_false_eq_true, if_true]
      rfl
  | subservice before name after accessors node hservice hnames hreaches hmissing =>
      simp [locate, hservice, hnames, descend_of_missing hreaches hmissing, Except.mapError, bind,
        Except.bind]
  | method accessors node hservice hreaches hmethod =>
      simp only [locate, hservice, ne_eq, not_true_eq_false, if_false, descend_of_reaches hreaches,
        Except.mapError, bind, Except.bind, hmethod]
      rfl
  | signature accessors method error hlocates hfault =>
      rw [locate_of_locates hlocates]
      exact hfault

/-- There is only one first fault. -/
theorem FirstFault.unique {service : Service host} {path : ServicePath} {generics : List TypeExpr}
    {codecOf : TypeExpr → Except LookupError ValueCodec} {error other : CompileError}
    (h : service.FirstFault path generics codecOf error)
    (hother : service.FirstFault path generics codecOf other) : error = other := by
  have hspec := h.spec
  have hotherSpec := hother.spec
  cases hlocate : service.locate path with
  | ok found =>
      rw [hlocate] at hspec hotherSpec
      exact Option.some.inj (hspec.symm.trans hotherSpec)
  | error missing =>
      rw [hlocate] at hspec hotherSpec
      exact hspec.symm.trans hotherSpec

/-- An acceptable method at the path leaves no first fault. -/
theorem FirstFault.not_accepts {service : Service host} {path : ServicePath}
    {generics : List TypeExpr} {codecOf : TypeExpr → Except LookupError ValueCodec}
    {error : CompileError} (h : service.FirstFault path generics codecOf error)
    {accessors : List (Accessor host)} {method : Method host}
    (hlocates : service.Locates path accessors method) : ¬ method.Accepts generics codecOf := by
  intro haccepts
  have hspec := h.spec
  rw [locate_of_locates hlocates] at hspec
  simp [(method.faults_eq_nil_iff generics codecOf).2 haccepts] at hspec

end Service

/-- A described method has no fault. -/
theorem Signature.Describes.accepts {signature : Signature} {method : Method host}
    {generics : List TypeExpr} {catalog : Catalog}
    (h : signature.Describes method generics catalog) :
    method.Accepts generics catalog.resolve := by
  have hremoting := (Remoting.faults_eq_nil_iff _ _ _).1 h.remoting_fits
  have hparameters : ∀ parameter ∈ method.parameters,
      (method.bindings generics).Resolve parameter.type ∧
        ∃ codec, catalog.resolve (parameter.type.substitute (method.bindings generics)) =
          .ok codec := by
    intro parameter hmem
    have hall : method.parameters.flatMap
        (Parameter.faults method.name (method.bindings generics) catalog.resolve) = [] :=
      Signature.flatMap_faults_of_forall₂ h.parameters
    obtain ⟨hunbound, hcodec⟩ :=
      List.append_eq_nil_iff.1 (List.flatMap_eq_nil_iff.1 hall parameter hmem)
    exact ⟨(unboundFaults_eq_nil_iff _ _ _).1 hunbound, (codecFaults_eq_nil_iff _ _ _).1 hcodec⟩
  refine ⟨h.arity, fun parameter hmem => (hparameters parameter hmem).1, h.returnType_resolved,
    h.returnType_eq ▸ hremoting.1, hremoting.2,
    fun parameter hmem => (hparameters parameter hmem).2, ?_⟩
  intro type htype
  rw [← h.returnType_eq, ← h.result_type] at htype
  obtain ⟨result, hresult, rfl⟩ := Option.map_eq_some_iff.1 htype
  exact ⟨result.codec, h.result_codec result hresult⟩

/-- On a registry after any steps, a compilation succeeds exactly when the path names an acceptable
method, and otherwise it fails with the first fault. -/
theorem Service.compile_ok_iff (steps : List Registry.Step) (service : Service host)
    (path : ServicePath) (generics : List TypeExpr) :
    let registry := Registry.run steps .empty
    let outcome := (service.compile path generics registry).1.value
    ((∃ invoker, outcome = .ok invoker) ↔ ∃ accessors method,
      service.Locates path accessors method ∧ method.Accepts generics registry.codecOf) ∧
    ∀ error, outcome = .error error ↔
      service.FirstFault path generics registry.codecOf error := by
  intro registry outcome
  have hregistry := Registry.run_caches steps
  have hcodecs : registry.codecOf = (Catalog.of (Registry.registered steps)).resolve :=
    funext hregistry.codecOf_eq
  have hspec := (service.compile_spec hregistry path generics).2
  rw [hcodecs]
  -- A first fault and an acceptable method exclude each other, so each outcome settles both sides.
  cases houtcome : outcome with
  | ok invoker =>
      rw [show (service.compile path generics registry).1.value = _ from houtcome] at hspec
      obtain ⟨accessors, method, hcompiles⟩ := hspec
      have haccepts := hcompiles.signature.accepts
      refine ⟨⟨fun _ => ⟨accessors, method, hcompiles.locates, haccepts⟩,
        fun _ => ⟨invoker, rfl⟩⟩, ?_⟩
      intro error
      constructor
      · intro h
        cases h
      · intro hfault
        exact absurd haccepts (hfault.not_accepts hcompiles.locates)
  | error error =>
      rw [show (service.compile path generics registry).1.value = _ from houtcome] at hspec
      refine ⟨⟨fun h => ?_, fun h => ?_⟩, ?_⟩
      · obtain ⟨_, h⟩ := h
        cases h
      · obtain ⟨accessors, method, hlocates, haccepts⟩ := h
        exact absurd haccepts (hspec.not_accepts hlocates)
      · intro other
        constructor
        · intro h
          cases h
          exact hspec
        · intro hother
          rw [hspec.unique hother]

end Switchboard
