import Switchboard.Method.Arguments

/-!
# The host of the services

A `Host` is the world that the described services live in: the service objects with their types,
and the state that accessors, methods and pending operations read and change. An `Accessor` leads
from a service object to that of a sub-service, a `Handler` carries a call out, and a
`PendingOperation` is asked again and again until it has settled.
-/

namespace Switchboard

/-- The service objects of a host, their types, and the state that the code of the host works on. -/
structure Host where
  State : Type
  Object : Type
  typeOf : Object → ServiceType

/-- Checks that a service object has the type `type`. -/
def Host.expect (host : Host) (type : ServiceType) (object : host.Object) :
    Except MethodError Unit :=
  if host.typeOf object = type then .ok () else .error (.serviceType type)

/-- The host with one service object, which is of the type `type`. -/
def Host.single (State : Type) (type : ServiceType) : Host := ⟨State, Unit, fun _ => type⟩

variable (host : Host)

/-- An `Accessor` gives the service object of a sub-service, or fails. -/
abbrev Accessor := host.Object → EStateM MethodError host.State host.Object

/-- The answer of a pending operation: not ready, or how it came out, with or without a value. -/
inductive Poll where
  | notReady
  | settled (outcome : Except MethodError (Option Value))

/-- A `PendingOperation` is a method still at work. Running it asks whether it is ready. -/
abbrev PendingOperation := StateM host.State Poll

/-- What a handler returns: no value, a value, or an operation still at work. -/
inductive Returned where
  | void
  | value (value : Value)
  | pending (operation : PendingOperation host)

/-- The text of what a handler returned, which does not show the value. -/
def Returned.inspect {host : Host} : Returned host → String
  | void => "Void"
  | value _ => "Value(..)"
  | pending _ => "Pending(..)"

/-- What a handler can read and change: the arguments of its call and the state of the host. -/
structure Call where
  arguments : Arguments
  state : host.State

/-- An action of a handler. -/
abbrev HandlerM := EStateM MethodError (Call host)

/-- A `Handler` carries out the calls of one method on a service object. -/
abbrev Handler := host.Object → HandlerM host (Returned host)

namespace HandlerM

variable {host : Host} {α : Type}

/-- Acts on the arguments of the call. -/
def onArguments (action : ArgumentsM α) : HandlerM host α := fun call =>
  match action call.arguments with
  | .ok a arguments => .ok a { call with arguments := arguments }
  | .error error arguments => .error error { call with arguments := arguments }

/-- Acts on the state of the host. -/
def onState (action : StateM host.State α) : HandlerM host α := fun call =>
  match action call.state with
  | (a, state) => .ok a { call with state := state }

end HandlerM

end Switchboard
