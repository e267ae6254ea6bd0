import Switchboard.TypeExpr
import Switchboard.Invoker.Compile
import Switchboard.Service.Draft
import Switchboard.Text.Quoted
import Switchboard.ServicePath
import Switchboard.Registry.Standard
import Switchboard.Codec.Product
import Switchboard.Codec.Compact
import Switchboard.Proofs.Registry.Resolution
import Switchboard.Proofs.TypeExpr.Generics
import Switchboard.Proofs.Invoker.Signature
import Switchboard.Proofs.Invoker.Compile
import Switchboard.Proofs.Invoker.Acceptance
import Switchboard.Proofs.Invoker.Recording
import Switchboard.Proofs.Invoker.Stages
import Switchboard.Proofs.Codec.Lawful
import Switchboard.Proofs.Registry.Standard
import Switchboard.Proofs.Response.Layout
import Switchboard.Proofs.Invoker.RoundTrip
import Switchboard.Proofs.Text.Canonical
import Switchboard.Proofs.Codec.Canonical
import Switchboard.Proofs.Registry.Format
import Switchboard.Proofs.Invoker.Completion
import Switchboard.Proofs.TypeExpr.Instance
import Switchboard.Proofs.Invoker.Instance
import Switchboard.Proofs.Invoker.Monomorphic
import Switchboard.Proofs.Codec.Local
import Switchboard.Proofs.Invoker.Request
import Switchboard.Proofs.Invoker.OwnRequest
import Switchboard.Proofs.Invoker.Truncation
import Switchboard.Proofs.ServicePath.Text
import Switchboard.Proofs.Service.History
import Switchboard.Proofs.Service.Addressing
import Switchboard.Proofs.Registry.Concrete
import Switchboard.Proofs.Service.DeclaredType
import Switchboard.Proofs.Response.Deviation
import Switchboard.Proofs.Method.Slots
import Switchboard.Proofs.Registry.Builds
import Switchboard.Proofs.Registry.Locality
import Switchboard.Proofs.Registry.Measure
import Switchboard.Proofs.ServicePath.Grammar
import Switchboard.Proofs.Service.Record
import Switchboard.Proofs.Codec.Compact
import Switchboard.Proofs.Registry.Weight
import Switchboard.Proofs.TypeExpr.Substitution
import Switchboard.Proofs.Reader.Calls
import Switchboard.Proofs.Writer.Calls
