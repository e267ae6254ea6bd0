import Switchboard.Invoker.Basic

/-!
# Compiling invokers

`Service.compile` finds the method at a path, resolves its signature, and puts together the invoker
that carries out its calls. Everything that depends on the description happens here, once.
-/

namespace Switchboard

variable {host : Host}

namespace Service

/-- The name of the invoker for a path, such as `Calculator__Calculator_Scientific_Pow`. -/
def invokerName (service : Service host) (path : ServicePath) : String :=
  service.name ++ "__" ++ "_".intercalate path.segments

/-- The node that accessor names lead to, with the accessors on the way. The failure is the first
name that leads nowhere. -/
def descend (service : Service host) :
    List String → Except String (List (Accessor host) × Service host)
  | [] => .ok ([], service)
  | name :: names =>
      match service.subservice? name with
      | none => .error name
      | some subservice => do
          let (accessors, node) ← subservice.service.descend names
          pure (subservice.accessor :: accessors, node)

/-- The accessors to follow and the method at the end of a path. -/
def locate (service : Service host) (path : ServicePath) :
    Except CompileError (List (Accessor host) × Method host) := do
  if path.service ≠ service.name then
    throw (.invalidPath path.display path.service .service)
  let (accessors, node) ← (service.descend path.subservices).mapError fun segment =>
    .invalidPath path.display segment .subservice
  match node.method? path.method with
  | none => throw (.invalidPath path.display path.method .method)
  | some method => pure (accessors, method)

/-- Puts together the invoker for the method at `path`, whose generics stand for the types
`generics`. -/
def invokerFor (service : Service host) (path : ServicePath) (generics : List TypeExpr) :
    CompileM (Invoker host) := do
  let (accessors, method) ← MonadExcept.ofExcept (service.locate path)
  let signature ← Signature.resolve method generics
  pure {
    name := service.invokerName path
    path := path
    serviceType := service.serviceType
    navigation := accessors
    handler := method.handler
    signature := signature }

end Service

/-- The event that reports a compiled invoker. -/
def Invoker.compiled (invoker : Invoker host) : LogEvent where
  level := .debug
  message := "compiled invoker"
  fields := [
    ("invoker", invoker.name),
    ("remoting", invoker.remoting.display),
    ("request", s!"{invoker.signature.requestCount}"),
    ("parameters", Quoted.quoteAll
      (invoker.signature.parameters.map fun parameter => parameter.type.display)),
    ("returns", invoker.signature.returnType.display)]

/-- The event that reports a failed compilation. -/
def compileFailed (path : ServicePath) (error : CompileError) : LogEvent where
  level := .debug
  message := "compile failed"
  fields := [("path", path.display), ("error", error.message)]

/-- Compiles the method at `path`, whose generics stand for the types `generics`. The builds of
codecs come first in the log, and then the outcome. -/
def Service.compile (service : Service host) (path : ServicePath) (generics : List TypeExpr) :
    StateM Registry (Logged (Except CompileError (Invoker host))) := fun registry =>
  match service.invokerFor path generics registry with
  | .ok invoker after =>
      (⟨.ok invoker, (registry.newBuilds after).map Build.event ++ [invoker.compiled]⟩, after)
  | .error error after =>
      (⟨.error error, (registry.newBuilds after).map Build.event ++ [compileFailed path error]⟩,
        after)

end Switchboard
