import Switchboard.Service.Host

/-!
# Described services

A `Service` is a tree. Each node names a service, lists its methods, and lists the sub-services that
can be reached from it, each with the accessor that leads there.
-/

namespace Switchboard

/-- A parameter of a method. -/
structure Parameter where
  name : String
  type : TypeExpr
  way : Way
  deriving DecidableEq

/-- A method: its parameters and generic parameters in the order of declaration, its return type,
how its result travels, and the handler that carries it out. -/
structure Method (host : Host) where
  name : String
  parameters : List Parameter
  returnType : TypeExpr
  generics : List String
  remoting : Remoting
  handler : Handler host

mutual
/-- A sub-service under the name of its accessor. -/
structure Subservice (host : Host) where
  name : String
  accessor : Accessor host
  service : Service host

/-- A node of the tree of services. When it declares a `serviceType`, calls through this node are
only for objects of that type. -/
structure Service (host : Host) where
  name : String
  serviceType : Option ServiceType
  methods : List (Method host)
  subservices : List (Subservice host)
end

namespace Service

variable {host : Host}

/-- The method with the given name. -/
def method? (service : Service host) (name : String) : Option (Method host) :=
  service.methods.find? fun method => method.name = name

/-- The sub-service with the given accessor name. -/
def subservice? (service : Service host) (name : String) : Option (Subservice host) :=
  service.subservices.find? fun subservice => subservice.name = name

end Service

end Switchboard
