import Switchboard.Invoker.Error
import Switchboard.Response.Layout
import Switchboard.Service.Basic

/-!
# Resolved signatures

`Signature.resolve` takes the generics out of a described method and binds its types to codecs. On
the way it refuses a wrong number of generic arguments, a generic that stays unbound, a remoting
that cannot carry the return type, and a type without a codec, whichever comes first.
-/

namespace Switchboard

/-- An action of the compiler, which looks codecs up. -/
abbrev CompileM := EStateM CompileError Registry

/-- A parameter with its resolved type and the codec of that type. -/
structure BoundParameter where
  way : Way
  type : TypeExpr
  codec : ValueCodec

/-- What becomes of the result of a method: a `direct` one goes into the response at once, and an
`async` one is awaited, and then either dropped or written as the only field of the response. -/
inductive Completion where
  | direct (layout : ResponseLayout)
  | async (result : Option ResultCodec)

/-- How the result of a method with this completion travels. -/
def Completion.remoting : Completion → Remoting
  | direct _ => .direct
  | async none => .asyncVoid
  | async (some _) => .asyncWithResult

/-- A method whose types are resolved and bound to codecs: the parameters in the order of
declaration, the return type, what becomes of the result, and the types that the generics stand
for. -/
structure Signature where
  parameters : List BoundParameter
  returnType : TypeExpr
  completion : Completion
  generics : List TypeExpr

/-- What a caller receives from a method: a `direct` value or nothing, or what an operation in
progress settles with. -/
inductive ResultShape where
  | direct (type : Option TypeExpr)
  | asyncVoid
  | asyncWithResult (type : TypeExpr)
  deriving DecidableEq

/-- What a caller receives under the given remoting, if it can carry the parameters and the return
type. -/
def ResultShape.of (remoting : Remoting) (parameters : List Parameter) (returnType : TypeExpr) :
    Except SignatureFault ResultShape :=
  if remoting.isAsync && parameters.any fun parameter => parameter.way.isResponse then
    .error .asyncWithResponseParameter
  else
    match remoting, returnType with
    | .direct, .pending _ => .error .directWithPending
    | .direct, .void => .ok (.direct none)
    | .direct, type => .ok (.direct (some type))
    | .asyncVoid, .pending .void => .ok .asyncVoid
    | .asyncVoid, _ => .error .asyncVoidWithResult
    | .asyncWithResult, .pending .void => .error .asyncWithoutResult
    | .asyncWithResult, .pending type => .ok (.asyncWithResult type)
    | .asyncWithResult, _ => .error .asyncWithoutResult

namespace Signature

/-- Replaces the generics in a type, all of which must be bound to types without generics. -/
def resolveType (method : String) (bindings : TypeExpr.Bindings) (type : TypeExpr) :
    Except CompileError TypeExpr :=
  let resolved := type.substitute bindings
  match resolved.firstUnresolvedGeneric with
  | some name => .error (.unresolvedGeneric method name)
  | none => .ok resolved

/-- The codec of a resolved type. -/
def codecFor (method : String) (type : TypeExpr) : CompileM ValueCodec :=
  (Registry.find type).adaptExcept (.codec method)

/-- The codec of a result together with its type. -/
def resultFor (method : String) (type : TypeExpr) : CompileM ResultCodec := do
  let codec ← codecFor method type
  pure ⟨type, codec⟩

/-- Resolves the types of parameters and finds their codecs, one parameter after the other. -/
def bindParameters (method : String) (bindings : TypeExpr.Bindings) :
    List Parameter → CompileM (List BoundParameter)
  | [] => pure []
  | parameter :: parameters => do
      let type ← MonadExcept.ofExcept (resolveType method bindings parameter.type)
      let codec ← codecFor method type
      let rest ← bindParameters method bindings parameters
      pure (⟨parameter.way, type, codec⟩ :: rest)

/-- The codecs of the parameters that go into the response. -/
def responseCodecs (parameters : List BoundParameter) : List ValueCodec :=
  (parameters.filter fun parameter => parameter.way.isResponse).map BoundParameter.codec

/-- What becomes of a result of the given shape. -/
def complete (method : String) (parameters : List BoundParameter) :
    ResultShape → CompileM Completion
  | .direct none => pure (.direct ⟨responseCodecs parameters, none⟩)
  | .direct (some type) => do
      let result ← resultFor method type
      pure (.direct ⟨responseCodecs parameters, some result⟩)
  | .asyncVoid => pure (.async none)
  | .asyncWithResult type => do
      let result ← resultFor method type
      pure (.async (some result))

/-- Resolves the signature of a method whose generics stand for the types `generics`. -/
def resolve {host : Host} (method : Method host) (generics : List TypeExpr) :
    CompileM Signature := do
  if method.generics.length ≠ generics.length then
    throw (.genericArity method.name method.generics.length generics.length)
  let bindings := TypeExpr.Bindings.ofLists method.generics generics
  let returnType ← MonadExcept.ofExcept (resolveType method.name bindings method.returnType)
  let shape ← MonadExcept.ofExcept
    ((ResultShape.of method.remoting method.parameters returnType).mapError
      (.unsupportedSignature method.name))
  let parameters ← bindParameters method.name bindings method.parameters
  let completion ← complete method.name parameters shape
  pure ⟨parameters, returnType, completion, generics⟩

/-- The number of parameters read from the request. -/
def requestCount (signature : Signature) : Nat :=
  signature.parameters.countP fun parameter => parameter.way.isRequest

end Signature

end Switchboard
