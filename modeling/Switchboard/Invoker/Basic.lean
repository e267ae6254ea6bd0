import Switchboard.Response.Basic
import Switchboard.ServicePath
import Switchboard.Text.Quoted

/-!
# Invokers

An `Invoker` carries out the calls of one method of one service tree, for one choice of types for
its generics. `Invoker.invoke` checks the type of the service object, follows the accessors to the
object that has the method, reads the arguments from the request, calls the handler, and makes the
response. The first of these that fails decides the result, and nothing after it happens.
-/

namespace Switchboard

variable {host : Host}

/-- Everything that calls of a compiled method need. -/
structure Invoker (host : Host) where
  name : String
  path : ServicePath
  serviceType : Option ServiceType
  navigation : List (Accessor host)
  handler : Handler host
  signature : Signature

/-- An action of a call, which works on the state of the host. -/
abbrev InvokeM (host : Host) := EStateM InvokeError host.State

namespace Invoker

/-- How the result of the method travels. -/
def remoting (invoker : Invoker host) : Remoting := invoker.signature.completion.remoting

/-- The text of an invoker. -/
def inspect (invoker : Invoker host) : String :=
  "CompiledInvoker \x7b name: " ++ Quoted.quote invoker.name ++ ", remoting: " ++
    invoker.remoting.inspect ++ ", parameters: " ++
    s!"{invoker.signature.parameters.length} \x7d"

/-- The event that reports a call. -/
def invoked (invoker : Invoker host) (buffer : Bytes) (offset : Nat) : LogEvent where
  level := .trace
  message := "invoke"
  fields := [("invoker", invoker.name), ("offset", s!"{offset}"), ("len", s!"{buffer.length}")]

/-- Checks that the service object has the type that the root of the tree declares, if it does. -/
def checkType (invoker : Invoker host) (object : host.Object) : Except MethodError Unit :=
  match invoker.serviceType with
  | some type => host.expect type object
  | none => .ok ()

/-- Follows accessors from one service object to the next. -/
def follow : List (Accessor host) → host.Object → EStateM MethodError host.State host.Object
  | [], object => pure object
  | accessor :: accessors, object => do
      let next ← accessor object
      follow accessors next

/-- Reads one slot for each parameter. An output starts without a value. -/
def decodeSlots : List BoundParameter → ReadM (List Slot)
  | [] => pure []
  | parameter :: parameters => do
      let slot ← match parameter.way with
        | .val => do pure (.val (some (← parameter.codec.decode)))
        | .ref => do pure (.ref (← parameter.codec.decode))
        | .out => pure (.out none)
      let slots ← decodeSlots parameters
      pure (slot :: slots)

/-- The slots of a call whose request begins at `offset`. The buffer is not looked at when no
parameter is read from it. -/
def requestSlots (parameters : List BoundParameter) (buffer : Bytes) (offset : Nat) :
    Except CodecError (List Slot) :=
  if parameters.any fun parameter => parameter.way.isRequest then do
    let reader ← Reader.ofOffset buffer offset
    match (decodeSlots parameters).run reader with
    | .ok slots _ => pure slots
    | .error error _ => throw error
  else pure (parameters.map fun _ => .out none)

/-- Calls a handler. What it returns comes with the arguments as it left them. -/
def call (handler : Handler host) (object : host.Object) (arguments : Arguments) :
    EStateM MethodError host.State (Returned host × Arguments) := fun state =>
  match (handler object).run ⟨arguments, state⟩ with
  | .ok returned after => .ok (returned, after.arguments) after.state
  | .error error after => .error error after.state

/-- The result that a direct method gives the response, if what it returned has the declared
form. -/
def directResult (signature : Signature) (layout : ResponseLayout) :
    Returned host → Except InvokeError (Option Value)
  | .void => .ok none
  | .value value =>
      if layout.result.isSome then .ok (some value)
      else .error (.returnShape signature.returnType)
  | .pending _ => .error (.returnShape signature.returnType)

/-- The response made of what a handler returned and left in the arguments. -/
def respond (invoker : Invoker host) (returned : Returned host) (arguments : Arguments) :
    Except InvokeError (Response host) :=
  match invoker.signature.completion with
  | .direct layout => do
      let result ← directResult invoker.signature layout returned
      let parameters ← arguments.response.mapError .outNotAssigned
      pure (.ready (layout.encode parameters result))
  | .async result =>
      match returned with
      | .pending operation => .ok (.pending invoker.name result operation)
      | .void | .value _ => .error (.returnShape invoker.signature.returnType)

/-- The stages of a call, one after the other. -/
def run (invoker : Invoker host) (object : host.Object) (buffer : Bytes) (offset : Nat) :
    InvokeM host (Response host) := do
  MonadExcept.ofExcept ((invoker.checkType object).mapError .method)
  let target ← (follow invoker.navigation object).adaptExcept .method
  let slots ← MonadExcept.ofExcept
    ((requestSlots invoker.signature.parameters buffer offset).mapError .codec)
  let (returned, arguments) ←
    (call invoker.handler target ⟨slots, invoker.signature.generics⟩).adaptExcept .method
  MonadExcept.ofExcept (invoker.respond returned arguments)

/-- Calls the method on the service object `object`, with the request that begins at `offset` in
`buffer`. -/
def invoke (invoker : Invoker host) (object : host.Object) (buffer : Bytes) (offset : Nat) :
    StateM host.State (Logged (Response host)) := fun state =>
  match invoker.run object buffer offset state with
  | .ok response after => (⟨response, [invoker.invoked buffer offset]⟩, after)
  | .error error after => (⟨.ready (.error error), [invoker.invoked buffer offset]⟩, after)

end Invoker

end Switchboard
