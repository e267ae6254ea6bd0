import Switchboard.Service.Basic
import Switchboard.ServicePath

/-!
# Drafting a service

A `ServiceDraft` grows by methods, declarations on a method, and sub-services, each of which may be
rejected: the names of one kind are distinct, and the names of services and methods can stand in a
path. `ServiceDraft.finish` is the service that the draft describes. A rejected step gives an error
and no draft, so the draft before it is the one to go on with.
-/

namespace Switchboard

/-- Why a step of a draft is rejected. -/
inductive DraftError where
  | emptyServiceName
  | serviceNameTooLong
  | emptyMethodName
  | methodNameTooLong
  | emptyParameterName
  | separatorInName (name : String)
  | duplicateMethod (name : String)
  | duplicateSubservice (name : String)
  | duplicateParameter (name : String)
  | duplicateGeneric (name : String)
  deriving DecidableEq, Repr

/-- The greatest length of a service name or accessor name in bytes. -/
def maxServiceNameBytes : Nat := 256

/-- The greatest length of a method name in bytes. -/
def maxMethodNameBytes : Nat := 128

/-- The text of a rejected step. -/
def DraftError.message : DraftError → String
  | emptyServiceName => "service name cannot be empty"
  | serviceNameTooLong => s!"service name exceeds {maxServiceNameBytes} bytes"
  | emptyMethodName => "method name cannot be empty"
  | methodNameTooLong => s!"method name exceeds {maxMethodNameBytes} bytes"
  | emptyParameterName => "parameter name cannot be empty"
  | separatorInName name => "name `" ++ name ++ "` contains '/'"
  | duplicateMethod name => "duplicate method `" ++ name ++ "`"
  | duplicateSubservice name => "duplicate sub-service `" ++ name ++ "`"
  | duplicateParameter name => "duplicate parameter `" ++ name ++ "`"
  | duplicateGeneric name => "duplicate generic parameter `" ++ name ++ "`"

/-- Checks a name that stands in paths: not empty, not too long, and without a separator. -/
def checkPathName (empty tooLong : DraftError) (maxBytes : Nat) (name : String) :
    Except DraftError Unit :=
  if name = "" then .error empty
  else if maxBytes < name.utf8ByteSize then .error tooLong
  else if hasSeparator name then .error (.separatorInName name)
  else .ok ()

/-- Checks the name of a service or of an accessor. -/
def checkServiceName : String → Except DraftError Unit :=
  checkPathName .emptyServiceName .serviceNameTooLong maxServiceNameBytes

/-- Checks the name of a method. -/
def checkMethodName : String → Except DraftError Unit :=
  checkPathName .emptyMethodName .methodNameTooLong maxMethodNameBytes

variable {host : Host}

/-- A method being drafted. Its remoting is inferred in the end unless it is declared. -/
structure MethodDraft (host : Host) where
  name : String
  parameters : List Parameter
  returnType : TypeExpr
  generics : List String
  remoting : Option Remoting
  handler : Handler host

/-- A declaration on a method: one more parameter, one more generic parameter, the return type, or
the remoting. -/
inductive Declaration where
  | parameter (name : String) (type : TypeExpr) (way : Way)
  | generic (name : String)
  | returns (type : TypeExpr)
  | remoting (kind : Remoting)

namespace MethodDraft

/-- A method without parameters and without a result. -/
def start (name : String) (handler : Handler host) : MethodDraft host :=
  ⟨name, [], .void, [], none, handler⟩

/-- Adds a declaration, unless its name is empty or taken. -/
def declare (draft : MethodDraft host) : Declaration → Except DraftError (MethodDraft host)
  | .parameter name type way =>
      if name = "" then .error .emptyParameterName
      else if name ∈ draft.parameters.map Parameter.name then .error (.duplicateParameter name)
      else .ok { draft with parameters := draft.parameters ++ [⟨name, type, way⟩] }
  | .generic name =>
      if name = "" then .error .emptyParameterName
      else if name ∈ draft.generics then .error (.duplicateGeneric name)
      else .ok { draft with generics := draft.generics ++ [name] }
  | .returns type => .ok { draft with returnType := type }
  | .remoting kind => .ok { draft with remoting := some kind }

/-- The method that the draft describes. -/
def finish (draft : MethodDraft host) : Method host where
  name := draft.name
  parameters := draft.parameters
  returnType := draft.returnType
  generics := draft.generics
  remoting := draft.remoting.getD (.infer draft.returnType)
  handler := draft.handler

end MethodDraft

/-- A service being drafted, with its methods and sub-services in the order in which they were
added. -/
structure ServiceDraft (host : Host) where
  name : String
  serviceType : Option ServiceType
  methods : List (MethodDraft host)
  subservices : List (Subservice host)

namespace ServiceDraft

/-- Begins the draft of a service, for objects of the type `serviceType` if there is one. -/
def start (name : String) (serviceType : Option ServiceType) :
    Except DraftError (ServiceDraft host) := do
  checkServiceName name
  pure ⟨name, serviceType, [], []⟩

/-- Adds a method that `handler` carries out. -/
def addMethod (draft : ServiceDraft host) (name : String) (handler : Handler host) :
    Except DraftError (ServiceDraft host) := do
  checkMethodName name
  if name ∈ draft.methods.map MethodDraft.name then throw (.duplicateMethod name)
  pure { draft with methods := draft.methods ++ [.start name handler] }

/-- Adds a sub-service that `accessor` leads to. -/
def addSubservice (draft : ServiceDraft host) (name : String) (accessor : Accessor host)
    (service : Service host) : Except DraftError (ServiceDraft host) := do
  checkServiceName name
  if name ∈ draft.subservices.map Subservice.name then throw (.duplicateSubservice name)
  pure { draft with subservices := draft.subservices ++ [⟨name, accessor, service⟩] }

/-- Adds a declaration to the method named `method` among `methods`. -/
def declareIn (method : String) (declaration : Declaration) :
    List (MethodDraft host) → Except DraftError (List (MethodDraft host))
  | [] => .ok []
  | draft :: drafts =>
      if draft.name = method then do
        let changed ← draft.declare declaration
        pure (changed :: drafts)
      else do
        let rest ← declareIn method declaration drafts
        pure (draft :: rest)

/-- Adds a declaration to the method named `method`. -/
def declare (draft : ServiceDraft host) (method : String) (declaration : Declaration) :
    Except DraftError (ServiceDraft host) := do
  let methods ← declareIn method declaration draft.methods
  pure { draft with methods := methods }

/-- The service that the draft describes. -/
def finish (draft : ServiceDraft host) : Service host where
  name := draft.name
  serviceType := draft.serviceType
  methods := draft.methods.map MethodDraft.finish
  subservices := draft.subservices

end ServiceDraft

end Switchboard
