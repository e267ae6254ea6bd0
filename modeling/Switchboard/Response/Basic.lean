import Switchboard.Invoker.Signature
import Switchboard.Log

/-!
# Responses

A `Response` is ready, or it waits for the pending operation of a method. Polling it asks the
operation once, and nothing is encoded before the operation has settled. A response that is ready
stays as it is.
-/

namespace Switchboard

variable {host : Host}

/-- The response to a call of an invoker: the payload or the failure, or an operation to await and
the result to make of what it settles with. -/
inductive Response (host : Host) where
  | ready (result : Except InvokeError Bytes)
  | pending (invoker : String) (result : Option ResultCodec) (operation : PendingOperation host)

/-- The event that reports the failure of a pending operation. -/
def operationFailed (invoker : String) (error : MethodError) : LogEvent where
  level := .warn
  message := "pending operation failed"
  fields := [("invoker", invoker), ("error", error.message)]

namespace Response

/-- The payload made of what an operation settled with. Without an expected result it is empty,
whatever the operation gave. -/
def settle (result : Option ResultCodec) (value : Option Value) : Except InvokeError Bytes :=
  match result with
  | none => .ok []
  | some expected => ResponseLayout.encode ⟨[], some expected⟩ [] value

/-- Asks the operation that the response waits for, if it waits. -/
def poll : Response host → StateM host.State (Logged (Response host))
  | ready result => pure ⟨ready result, []⟩
  | pending invoker result operation => do
      match ← operation with
      | .notReady => pure ⟨pending invoker result operation, []⟩
      | .settled (.error error) =>
          pure ⟨ready (.error (.method error)), [operationFailed invoker error]⟩
      | .settled (.ok value) => pure ⟨ready (settle result value), []⟩

end Response

end Switchboard
