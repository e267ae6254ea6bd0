import Switchboard.Invoker.Signature
import Switchboard.Proofs.Action
import Switchboard.Proofs.Registry.Resolution
import Switchboard.Proofs.TypeExpr.Generics

/-!
# What a resolved signature consists of

`Method.faults` lists everything that is wrong with a method for given generic arguments, in the
order in which it is looked for, but each fault by itself. `Signature.Describes` says what a
resolved signature is made of. The main result, `Signature.resolve_yields`, says that resolving
gives a signature that describes the method, or the first fault.
-/

namespace Switchboard

variable {host : Host}

/-- The type of the value that the caller of a method receives, if it receives one. -/
def Remoting.received : Remoting → TypeExpr → Option TypeExpr
  | direct, .void => none
  | direct, type => some type
  | asyncVoid, _ => none
  | asyncWithResult, type => type.pendingResult

/-- What is wrong with a return type that is not of the kind that a remoting carries. -/
def Remoting.mismatch : Remoting → SignatureFault
  | direct => .directWithPending
  | asyncVoid => .asyncVoidWithResult
  | asyncWithResult => .asyncWithoutResult

/-- What a caller receives under a remoting that fits the return type. -/
def ResultShape.received : ResultShape → Option TypeExpr
  | direct type => type
  | asyncVoid => none
  | asyncWithResult type => some type

/-- The remoting that a shape belongs to. -/
def ResultShape.remoting : ResultShape → Remoting
  | direct _ => .direct
  | asyncVoid => .asyncVoid
  | asyncWithResult _ => .asyncWithResult

/-- The faults of a remoting for the parameters and the return type of a method. -/
def Remoting.faults (remoting : Remoting) (parameters : List Parameter) (returnType : TypeExpr) :
    List SignatureFault :=
  (if remoting.isAsync ∧ ∃ parameter ∈ parameters, parameter.way.isResponse then
    [.asyncWithResponseParameter] else []) ++
  (if remoting = .infer returnType then [] else [remoting.mismatch])

/-- The shape of a result is decided by the first fault, or else by what the caller receives. -/
theorem ResultShape.of_spec (remoting : Remoting) (parameters : List Parameter)
    (returnType : TypeExpr) :
    match ResultShape.of remoting parameters returnType with
    | .ok shape => remoting.faults parameters returnType = [] ∧ shape.remoting = remoting ∧
        shape.received = remoting.received returnType
    | .error fault => (remoting.faults parameters returnType).head? = some fault := by
  unfold ResultShape.of Remoting.faults
  by_cases hinputs : remoting.isAsync ∧ ∃ parameter ∈ parameters, parameter.way.isResponse
  · simp [hinputs]
  · have htest : (remoting.isAsync && parameters.any fun parameter => parameter.way.isResponse) =
        false := by
      simpa using hinputs
    rw [if_neg hinputs, htest]
    -- What is left depends on the remoting, and on how the return type and its result begin.
    cases remoting <;> rcases returnType with _ | _ | _ | (_ | _ | _ | _) <;>
      simp [Remoting.infer, TypeExpr.pendingResult, Remoting.mismatch, ResultShape.remoting,
        ResultShape.received, Remoting.received]

/-- What the generics of a method stand for. -/
def Method.bindings (method : Method host) (generics : List TypeExpr) : TypeExpr.Bindings :=
  .ofLists method.generics generics

/-- The return type of a method for given generic arguments. -/
def Method.resolvedReturn (method : Method host) (generics : List TypeExpr) : TypeExpr :=
  method.returnType.substitute (method.bindings generics)

/-- The fault of a type in which a generic stays unbound. -/
def unboundFaults (method : String) (bindings : TypeExpr.Bindings) (type : TypeExpr) :
    List CompileError :=
  ((type.substitute bindings).firstUnresolvedGeneric.map (.unresolvedGeneric method)).toList

/-- The fault of a type without a codec. -/
def codecFaults (method : String) (codecOf : TypeExpr → Except LookupError ValueCodec)
    (type : TypeExpr) : List CompileError :=
  match codecOf type with
  | .ok _ => []
  | .error error => [.codec method error]

/-- The faults of a parameter: an unbound generic in its type, then a missing codec. -/
def Parameter.faults (method : String) (bindings : TypeExpr.Bindings)
    (codecOf : TypeExpr → Except LookupError ValueCodec) (parameter : Parameter) :
    List CompileError :=
  unboundFaults method bindings parameter.type ++
    codecFaults method codecOf (parameter.type.substitute bindings)

/-- The faults of a method for given generic arguments, in the order in which they are looked for:
the number of the arguments, the return type, the remoting, the parameters one by one, and the codec
of what the caller receives. -/
def Method.faults (method : Method host) (generics : List TypeExpr)
    (codecOf : TypeExpr → Except LookupError ValueCodec) : List CompileError :=
  List.flatten [
    if method.generics.length = generics.length then []
      else [.genericArity method.name method.generics.length generics.length],
    unboundFaults method.name (method.bindings generics) method.returnType,
    (method.remoting.faults method.parameters (method.resolvedReturn generics)).map
      (.unsupportedSignature method.name),
    method.parameters.flatMap
      (Parameter.faults method.name (method.bindings generics) codecOf),
    (method.remoting.received (method.resolvedReturn generics)).toList.flatMap
      (codecFaults method.name codecOf)]

/-- A bound parameter stands for a described one. -/
structure BoundParameter.Binds (catalog : Catalog) (bindings : TypeExpr.Bindings)
    (parameter : Parameter) (bound : BoundParameter) : Prop where
  way_eq : bound.way = parameter.way
  type_eq : bound.type = parameter.type.substitute bindings
  resolved : bindings.Resolve parameter.type
  codec_eq : catalog.resolve bound.type = .ok bound.codec

/-- The result that a completion makes something of. -/
def Completion.result : Completion → Option ResultCodec
  | direct layout => layout.result
  | async result => result

/-- `signature.Describes method generics catalog` says that `signature` is what becomes of `method`
with the codecs of `catalog` when its generics stand for `generics`. -/
structure Signature.Describes (signature : Signature) (method : Method host)
    (generics : List TypeExpr) (catalog : Catalog) : Prop where
  generics_eq : signature.generics = generics
  arity : method.generics.length = generics.length
  returnType_eq : signature.returnType = method.resolvedReturn generics
  returnType_resolved : (method.bindings generics).Resolve method.returnType
  remoting_fits : method.remoting.faults method.parameters signature.returnType = []
  parameters : List.Forall₂ (BoundParameter.Binds catalog (method.bindings generics))
    method.parameters signature.parameters
  remoting_eq : signature.completion.remoting = method.remoting
  result_type : signature.completion.result.map ResultCodec.type =
    method.remoting.received signature.returnType
  result_codec : ∀ result, signature.completion.result = some result →
    catalog.resolve result.type = .ok result.codec
  layout_parameters : ∀ layout, signature.completion = .direct layout →
    layout.parameters = Signature.responseCodecs signature.parameters

namespace Signature

open Registry

variable {catalog : Catalog}

/-- A type is resolved when no generic is left in it. -/
theorem resolveType_yields (method : String) (bindings : TypeExpr.Bindings) (type : TypeExpr) :
    Yields catalog (MonadExcept.ofExcept (resolveType method bindings type))
      (fun resolved => resolved = type.substitute bindings ∧
        unboundFaults method bindings type = [] ∧ bindings.Resolve type)
      (fun error => unboundFaults method bindings type = [error]) := by
  cases hunbound : (type.substitute bindings).firstUnresolvedGeneric with
  | some name =>
      simp only [resolveType, unboundFaults, hunbound]
      exact .throw rfl
  | none =>
      simp only [resolveType, unboundFaults, hunbound]
      have hresolve := (TypeExpr.firstUnresolvedGeneric_substitute_eq_none_iff bindings type).1
        hunbound
      exact .pure ⟨rfl, rfl, hresolve⟩

/-- A shape is found when the remoting fits the parameters and the return type. -/
theorem resultShape_yields (method : String) (remoting : Remoting) (parameters : List Parameter)
    (returnType : TypeExpr) :
    Yields catalog (MonadExcept.ofExcept ((ResultShape.of remoting parameters returnType).mapError
        (CompileError.unsupportedSignature method)))
      (fun shape => remoting.faults parameters returnType = [] ∧ shape.remoting = remoting ∧
        shape.received = remoting.received returnType)
      (fun error => ((remoting.faults parameters returnType).map
        (CompileError.unsupportedSignature method)).head? = some error) := by
  have hspec := ResultShape.of_spec remoting parameters returnType
  cases hshape : ResultShape.of remoting parameters returnType with
  | ok shape =>
      rw [hshape] at hspec
      exact .pure hspec
  | error fault =>
      rw [hshape] at hspec
      exact .throw (by rw [List.head?_map, hspec]; rfl)

theorem codecFor_yields (method : String) (type : TypeExpr) :
    Yields catalog (codecFor method type) (fun codec => catalog.resolve type = .ok codec)
      (fun error => codecFaults method catalog.resolve type = [error]) := by
  refine (find_answers catalog type).adapt ?_
  intro error herror
  simp [codecFaults, herror]

theorem codecFaults_of_ok {method : String} {type : TypeExpr} {codec : ValueCodec}
    (h : catalog.resolve type = .ok codec) : codecFaults method catalog.resolve type = [] := by
  simp [codecFaults, h]

theorem faults_of_binds {method : String} {bindings : TypeExpr.Bindings} {parameter : Parameter}
    {bound : BoundParameter} (h : bound.Binds catalog bindings parameter) :
    parameter.faults method bindings catalog.resolve = [] := by
  have hunbound : unboundFaults method bindings parameter.type = [] := by
    simp [unboundFaults,
      (TypeExpr.firstUnresolvedGeneric_substitute_eq_none_iff bindings _).2 h.resolved]
  rw [Parameter.faults, hunbound, codecFaults_of_ok (h.type_eq ▸ h.codec_eq), List.append_nil]

theorem flatMap_faults_of_forall₂ {method : String} {bindings : TypeExpr.Bindings}
    {parameters : List Parameter} {bound : List BoundParameter}
    (h : List.Forall₂ (BoundParameter.Binds catalog bindings) parameters bound) :
    parameters.flatMap (Parameter.faults method bindings catalog.resolve) = [] := by
  induction h with
  | nil => rfl
  | cons hbinds _ ih => rw [List.flatMap_cons, faults_of_binds hbinds, ih, List.append_nil]

/-- Parameters are bound one after the other, up to the first fault. -/
theorem bindParameters_yields (method : String) (bindings : TypeExpr.Bindings)
    (parameters : List Parameter) :
    Yields catalog (bindParameters method bindings parameters)
      (List.Forall₂ (BoundParameter.Binds catalog bindings) parameters)
      (fun error => (parameters.flatMap
        (Parameter.faults method bindings catalog.resolve)).head? = some error) := by
  induction parameters with
  | nil => exact .pure .nil
  | cons parameter parameters ih =>
      rw [bindParameters]
      refine ((resolveType_yields method bindings parameter.type).mono (fun _ => id) ?_).bind ?_
      · intro error herror
        simp [Parameter.faults, herror]
      intro type htype
      obtain ⟨rfl, hunbound, hresolve⟩ := htype
      refine ((codecFor_yields method _).mono (fun _ => id) ?_).bind ?_
      · intro error herror
        simp [Parameter.faults, hunbound, herror]
      intro codec hcodec
      have hbinds : BoundParameter.Binds catalog bindings parameter
          ⟨parameter.way, parameter.type.substitute bindings, codec⟩ := ⟨rfl, rfl, hresolve, hcodec⟩
      refine (ih.mono (fun _ => id) ?_).bind ?_
      · intro error herror
        rw [List.flatMap_cons, faults_of_binds hbinds, List.nil_append, herror]
      · intro bound hbound
        exact .pure (.cons hbinds hbound)

theorem resultFor_yields (method : String) (type : TypeExpr) :
    Yields catalog (resultFor method type)
      (fun result => result.type = type ∧ catalog.resolve result.type = .ok result.codec)
      (fun error => codecFaults method catalog.resolve type = [error]) :=
  (codecFor_yields method type).bind fun _ hcodec => .pure ⟨rfl, hcodec⟩

/-- A completion carries what its shape says the caller receives, if that has a codec. -/
theorem complete_yields (method : String) (parameters : List BoundParameter)
    (shape : ResultShape) :
    Yields catalog (complete method parameters shape)
      (fun completion => completion.remoting = shape.remoting ∧
        completion.result.map ResultCodec.type = shape.received ∧
        (∀ result, completion.result = some result →
          catalog.resolve result.type = .ok result.codec) ∧
        ∀ layout, completion = .direct layout → layout.parameters = responseCodecs parameters)
      (fun error =>
        (shape.received.toList.flatMap (codecFaults method catalog.resolve)).head? =
          some error) := by
  cases shape with
  | direct received =>
      cases received with
      | none => exact .pure ⟨rfl, rfl, nofun, by rintro _ ⟨⟩; rfl⟩
      | some type =>
          refine ((resultFor_yields method type).mono (fun _ => id) ?_).bind ?_
          · intro error herror
            simp [ResultShape.received, herror]
          · intro result hresult
            obtain ⟨rfl, hcodec⟩ := hresult
            exact .pure ⟨rfl, rfl, by rintro _ ⟨⟩; exact hcodec, by rintro _ ⟨⟩; rfl⟩
  | asyncVoid => exact .pure ⟨rfl, rfl, nofun, nofun⟩
  | asyncWithResult type =>
      refine ((resultFor_yields method type).mono (fun _ => id) ?_).bind ?_
      · intro error herror
        simp [ResultShape.received, herror]
      · intro result hresult
        obtain ⟨rfl, hcodec⟩ := hresult
        exact .pure ⟨rfl, rfl, by rintro _ ⟨⟩; exact hcodec, nofun⟩

/-- Resolving a method gives a signature that describes it, or its first fault. -/
theorem resolve_yields (catalog : Catalog) (method : Method host) (generics : List TypeExpr) :
    Yields catalog (resolve method generics)
      (fun signature => signature.Describes method generics catalog)
      (fun error => (method.faults generics catalog.resolve).head? = some error) := by
  unfold resolve Method.faults
  by_cases harity : method.generics.length = generics.length
  · simp only [harity, ne_eq, not_true_eq_false, if_false, if_true, List.flatten_cons,
      List.flatten_nil, List.nil_append, List.append_nil]
    refine ((resolveType_yields method.name (method.bindings generics) method.returnType).mono
      (fun _ => id) ?_).bind ?_
    · intro error herror
      rw [herror]
      rfl
    intro returnType hreturnType
    obtain ⟨hreturn, hunbound, hresolve⟩ := hreturnType
    rw [hunbound, List.nil_append,
      show method.resolvedReturn generics = returnType from hreturn.symm]
    refine ((resultShape_yields method.name method.remoting method.parameters returnType).mono
      (fun _ => id) ?_).bind ?_
    · intro error herror
      rw [List.head?_append, herror]
      rfl
    intro shape hshape
    obtain ⟨hfits, hremoting, hreceived⟩ := hshape
    -- The faults that were looked for so far are none, so the next check gives the first one.
    rw [hfits, List.map_nil, List.nil_append]
    refine ((bindParameters_yields method.name (method.bindings generics)
      method.parameters).mono (fun _ => id) ?_).bind ?_
    · intro error herror
      simp [herror]
    intro parameters hparameters
    have hparameterFaults : method.parameters.flatMap (Parameter.faults method.name
        (method.bindings generics) catalog.resolve) = [] :=
      flatMap_faults_of_forall₂ hparameters
    rw [hparameterFaults, List.nil_append, ← hreceived]
    refine (complete_yields method.name parameters shape).bind ?_
    intro completion hcompletion
    obtain ⟨hkind, hresult, hcodec, hlayout⟩ := hcompletion
    exact .pure {
      generics_eq := rfl
      arity := harity
      returnType_eq := hreturn
      returnType_resolved := hresolve
      remoting_fits := hfits
      parameters := hparameters
      remoting_eq := hkind.trans hremoting
      result_type := hresult.trans hreceived
      result_codec := hcodec
      layout_parameters := hlayout }
  · simp only [harity, ne_eq, not_false_eq_true, if_true, if_false]
    exact .throw_bind rfl

end Signature

end Switchboard
