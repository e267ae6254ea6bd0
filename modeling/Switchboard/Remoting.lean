import Switchboard.TypeExpr

/-!
# How parameters and results travel

A `Way` says whether a parameter is read from the request, written to the response, or both. A
`Remoting` says how the result of a method reaches its caller, and `Remoting.infer` tells it from
the return type.
-/

namespace Switchboard

/-- A parameter is input (`val`), input that is written back after the call (`ref`), or output that
starts without a value (`out`). -/
inductive Way where
  | val
  | ref
  | out
  deriving DecidableEq, Repr

namespace Way

/-- Whether the parameter is read from the request. -/
def isRequest : Way → Bool
  | val | ref => true
  | out => false

/-- Whether the parameter is written to the response. -/
def isResponse : Way → Bool
  | ref | out => true
  | val => false

end Way

/-- A method returns its result at once (`direct`), or an operation in progress that settles without
a value (`asyncVoid`) or with one (`asyncWithResult`). -/
inductive Remoting where
  | direct
  | asyncVoid
  | asyncWithResult
  deriving DecidableEq, Repr

namespace Remoting

/-- How the result of a method with this return type travels, unless its description says
otherwise. -/
def infer (returnType : TypeExpr) : Remoting :=
  match returnType.pendingResult with
  | some .void => asyncVoid
  | some _ => asyncWithResult
  | none => direct

/-- Whether the method returns an operation in progress. -/
def isAsync (remoting : Remoting) : Bool := remoting ≠ direct

/-- The text of a remoting in messages. -/
def display : Remoting → String
  | direct => "direct"
  | asyncVoid => "async-void"
  | asyncWithResult => "async-with-retval"

/-- The name of a remoting in the text of an invoker. -/
def inspect : Remoting → String
  | direct => "Direct"
  | asyncVoid => "AsyncVoid"
  | asyncWithResult => "AsyncWithRetval"

end Remoting

end Switchboard
