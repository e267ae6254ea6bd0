import Switchboard.Codec.Error
import Switchboard.Method.Error
import Switchboard.TypeExpr

/-!
# What can go wrong in a call

`InvokeError` lists the causes: a request or a response that a codec refuses, a method that fails,
and a method that does not keep to its description.
-/

namespace Switchboard

/-- Why a call failed. -/
inductive InvokeError where
  | codec (error : CodecError)
  | method (error : MethodError)
  | outNotAssigned (index : Nat)
  | returnShape (expected : TypeExpr)
  deriving DecidableEq

namespace InvokeError

/-- The text of a failed call. -/
def message : InvokeError → String
  | codec error => error.message
  | method error => error.message
  | outNotAssigned index => s!"out parameter {index} was not assigned by the method"
  | returnShape expected =>
      "method result does not match declared return type `" ++ expected.display ++ "`"

/-- Whether the request was too short for the parameters. -/
def isUnderrun : InvokeError → Bool
  | codec error => error.isUnderrun
  | _ => false

end InvokeError

end Switchboard
