import Switchboard.Value

/-!
# What can go wrong inside a method

`MethodError` lists the ways in which a method, or an accessor on the way to it, can fail.
-/

namespace Switchboard

/-- The type of a service object, known by its name. -/
structure ServiceType where
  name : String
  deriving DecidableEq, Repr

/-- Why an argument slot cannot be used as asked. -/
inductive ArgumentFault where
  | outOfRange
  | alreadyTaken
  | unassigned
  | wrongWay
  | wrongType (expected : ValueType)
  deriving DecidableEq, Repr

/-- The text of a fault in the use of an argument slot. -/
def ArgumentFault.message : ArgumentFault → String
  | outOfRange => "no such parameter"
  | alreadyTaken => "value already taken"
  | unassigned => "out parameter not assigned yet"
  | wrongWay => "operation not allowed for this parameter way"
  | wrongType expected => "value is not a `" ++ expected.name ++ "`"

/-- Why a method failed: on its own account, by a wrong use of an argument slot, or because the
service object has another type than it expects. -/
inductive MethodError where
  | failed (reason : String)
  | argument (index : Nat) (fault : ArgumentFault)
  | serviceType (expected : ServiceType)
  deriving DecidableEq, Repr

/-- The text of a method's failure. -/
def MethodError.message : MethodError → String
  | failed reason => "service method failed: " ++ reason
  | argument index fault => s!"argument {index}: " ++ fault.message
  | serviceType expected => "service instance is not a `" ++ expected.name ++ "`"

end Switchboard
