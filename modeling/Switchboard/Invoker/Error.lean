import Switchboard.Registry.Basic

/-!
# What can go wrong when a method is compiled

`CompileError` lists the causes: a path that leads nowhere, generics that do not fit, a type without
a codec, or a remoting that cannot carry the return type.
-/

namespace Switchboard

/-- Which part of a path does not name anything. -/
inductive SegmentKind where
  | service
  | subservice
  | method
  deriving DecidableEq, Repr

/-- The text of the kind of a segment. -/
def SegmentKind.display : SegmentKind → String
  | service => "service"
  | subservice => "sub-service"
  | method => "method"

/-- Why a remoting cannot carry a method. -/
inductive SignatureFault where
  | asyncWithResponseParameter
  | directWithPending
  | asyncVoidWithResult
  | asyncWithoutResult
  deriving DecidableEq, Repr

/-- The text of the reason why a remoting cannot carry a method. -/
def SignatureFault.message : SignatureFault → String
  | asyncWithResponseParameter => "async methods cannot have ref or out parameters"
  | directWithPending => "direct methods cannot return a pending operation"
  | asyncVoidWithResult => "async-void methods must return a pending operation without a result"
  | asyncWithoutResult =>
      "async methods with a result must return a pending operation carrying a value"

/-- Why a method cannot be compiled. -/
inductive CompileError where
  | invalidPath (path segment : String) (kind : SegmentKind)
  | genericArity (method : String) (expected supplied : Nat)
  | unresolvedGeneric (method name : String)
  | codec (method : String) (error : LookupError)
  | unsupportedSignature (method : String) (fault : SignatureFault)
  deriving DecidableEq

/-- The text of a failed compilation. -/
def CompileError.message : CompileError → String
  | invalidPath path segment kind =>
      "invalid service path `" ++ path ++ "`: unknown " ++ kind.display ++ " `" ++ segment ++ "`"
  | genericArity method expected supplied =>
      "method `" ++ method ++ "` takes " ++
        s!"{expected} generic arguments, {supplied} supplied"
  | unresolvedGeneric method name =>
      "method `" ++ method ++ "`: generic parameter `" ++ name ++ "` is not bound"
  | codec method error => "method `" ++ method ++ "`: " ++ error.message
  | unsupportedSignature method fault =>
      "method `" ++ method ++ "` cannot be dispatched: " ++ fault.message

end Switchboard
