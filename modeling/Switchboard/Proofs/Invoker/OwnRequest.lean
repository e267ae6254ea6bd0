import Switchboard.Proofs.Invoker.Acceptance
import Switchboard.Proofs.Invoker.Request
import Switchboard.Proofs.Invoker.Stages

/-!
# A call and the bytes around its request

`Invoker.ActsAlike` says that two calls of an invoker in the same state cannot be told apart. The
main result, `Service.call_reads_own_request`, says that on a standard registry this is so for calls
with the same request, whatever stands in front of it and, unless it is too short, whatever stands
behind it. When nothing is read from the request, any two calls are alike.
-/

namespace Switchboard

variable {host : Host}

/-- Whether a response says that the request was too short. -/
def Response.isUnderrun : Response host → Bool
  | ready (.error error) => error.isUnderrun
  | _ => false

namespace Invoker

variable {invoker : Invoker host} {object : host.Object} {state after : host.State}
  {response : Response host} {effects : List (Effect host)}

/-- A call that does not end with an underrun goes the same way with any other request that is
decoded alike if it is decoded at all, since a call that ends before decoding does not depend on
it. -/
theorem Course.of_request {request other : Except CodecError (List Slot)}
    (h : invoker.Course object request state response after effects)
    (hresponse : response.isUnderrun = false)
    (hother : (∀ error, request = .error error → error.isUnderrun = false) → other = request) :
    invoker.Course object other state response after effects := by
  cases h with
  | wrongType type hdeclared htype => exact .wrongType type hdeclared htype
  | accessorFailed error after effects hadmits hfollows =>
      exact .accessorFailed error after effects hadmits hfollows
  | undecodable target after effects error hadmits hfollows hrequest =>
      have hsame : other = .error error := by
        rw [← hrequest]
        refine hother ?_
        intro failure hfailure
        obtain rfl : error = failure := Except.error.inj (hrequest.symm.trans hfailure)
        exact hresponse
      exact .undecodable target after effects error hadmits hfollows hsame
  | methodFailed target middle effects slots error final hadmits hfollows hrequest hhandler =>
      have hsame : other = .ok slots :=
        (hother fun _ herror => nomatch hrequest.symm.trans herror).trans hrequest
      exact .methodFailed target middle effects slots error final hadmits hfollows hsame hhandler
  | returned target middle effects slots returned final response hadmits hfollows hrequest hhandler
      hresponds =>
      have hsame : other = .ok slots :=
        (hother fun _ herror => nomatch hrequest.symm.trans herror).trans hrequest
      exact .returned target middle effects slots returned final response hadmits hfollows hsame
        hhandler hresponds

/-- The handler is called at most once, with the decoded slots. -/
theorem Course.filter_isCall {slots : List Slot}
    (h : invoker.Course object (.ok slots) state response after effects) :
    effects.filter Effect.isCall = [] ∨ ∃ target,
      effects.filter Effect.isCall = [.call target ⟨slots, invoker.signature.generics⟩] := by
  cases h with
  | wrongType => exact .inl rfl
  | accessorFailed error after effects _ hfollows => exact .inl hfollows.filter_isCall
  | undecodable target after effects error _ _ hrequest => exact nomatch hrequest
  | methodFailed target middle effects slots error final _ hfollows hrequest =>
      cases hrequest
      refine .inr ⟨target, ?_⟩
      rw [List.filter_append, hfollows.filter_isCall]
      rfl
  | returned target middle effects slots returned final response _ hfollows hrequest =>
      cases hrequest
      refine .inr ⟨target, ?_⟩
      rw [List.filter_append, hfollows.filter_isCall]
      rfl

/-- `invoker.ActsAlike object state buffer offset other start` says that the call with the request
at `offset` in `buffer` is seen to do just what the call with the request at `start` in `other`
does. -/
def ActsAlike (invoker : Invoker host) (object : host.Object) (state : host.State) (buffer : Bytes)
    (offset : Nat) (other : Bytes) (start : Nat) : Prop :=
  ∃ response after effects, invoker.Observed object buffer offset state response after effects ∧
    invoker.Observed object other start state response after effects

variable {method : Method host} {generics : List TypeExpr} {catalog : Catalog}

/-- Calls with the same decoded request act alike. -/
theorem actsAlike_of_requestSlots_eq (hsignature : invoker.signature.Describes method generics
      catalog) {buffer other : Bytes} {offset start : Nat}
    (h : requestSlots invoker.signature.parameters buffer offset =
      requestSlots invoker.signature.parameters other start)
    (object : host.Object) (state : host.State) :
    invoker.ActsAlike object state buffer offset other start := by
  obtain ⟨response, after, effects, hcourse⟩ := exists_course hsignature object
    (requestSlots invoker.signature.parameters buffer offset) state
  exact ⟨response, after, effects, observed_of_course hsignature hcourse,
    observed_of_course hsignature (h ▸ hcourse)⟩

/-- Bytes behind a request that is long enough change nothing that is seen of the call. -/
theorem Observed.append
    (hsignature : invoker.signature.Describes method generics (.of Registry.standardRegistrations))
    {buffer : Bytes} (h : invoker.Observed object buffer 0 state response after effects)
    (hresponse : response.isUnderrun = false) (tail : Bytes) :
    invoker.Observed object (buffer ++ tail) 0 state response after effects := by
  have hcourse := (observed_iff hsignature object buffer 0 state response after effects).1 h
  refine observed_of_course hsignature (hcourse.of_request hresponse ?_)
  intro henough
  exact requestSlots_append (local_of_binds hsignature.parameters) henough tail

end Invoker

namespace Service

open Invoker in
/-- On a standard registry, whatever was looked up and compiled in it before, what is seen of a call
does not depend on the bytes in front of its request, nor, unless it ends with an underrun, on those
behind it. A method that reads nothing from the request is called with outputs without a value, just
as they would be decoded, whatever the buffer and the offset are. -/
theorem call_reads_own_request (steps : List Registry.Step)
    (hsteps : Registry.registered steps = []) (service : Service host) (path : ServicePath)
    (generics : List TypeExpr) (invoker : Invoker host)
    (hcompile : (service.compile path generics
      (.run (.registerStandard :: steps) .empty)).1.value = .ok invoker) :
    (∀ object state before buffer,
      invoker.ActsAlike object state (before ++ buffer) before.length buffer 0) ∧
    (∀ object state buffer response after effects,
      invoker.Observed object buffer 0 state response after effects →
      response.isUnderrun = false →
      ∀ tail, invoker.Observed object (buffer ++ tail) 0 state response after effects) ∧
    ∃ accessors method, service.Locates path accessors method ∧
      ((∀ parameter ∈ method.parameters, parameter.way = .out) →
        let unassigned : List Slot := method.parameters.map fun _ => .out none
        (∀ reader, decodeSlots invoker.signature.parameters reader = .ok unassigned reader) ∧
        ∀ object state buffer offset other start,
          invoker.ActsAlike object state buffer offset other start ∧
          ∀ response after effects,
            invoker.Observed object buffer offset state response after effects →
            effects.filter Effect.isCall = [] ∨
              ∃ target, effects.filter Effect.isCall = [.call target ⟨unassigned, generics⟩]) := by
  obtain ⟨accessors, method, hcompiles⟩ :=
    exists_compiles (Registry.run_standard_caches hsteps) hcompile
  have hsignature := hcompiles.signature
  refine ⟨?_, ?_, accessors, method, hcompiles.locates, ?_⟩
  · intro object state before buffer
    exact actsAlike_of_requestSlots_eq hsignature
      (requestSlots_shift (local_of_binds hsignature.parameters) before buffer) object state
  · intro object state buffer response after effects hobserved hresponse tail
    exact hobserved.append hsignature hresponse tail
  · intro hout unassigned
    have hslots : ∀ buffer offset,
        requestSlots invoker.signature.parameters buffer offset = .ok unassigned :=
      requestSlots_of_outs hsignature.parameters hout
    refine ⟨decodeSlots_of_outs hsignature.parameters hout, ?_⟩
    intro object state buffer offset other start
    refine ⟨actsAlike_of_requestSlots_eq hsignature
      ((hslots buffer offset).trans (hslots other start).symm) object state, ?_⟩
    intro response after effects hobserved
    have hcourse := (observed_iff hsignature object buffer offset state response after effects).1
      hobserved
    rw [hslots buffer offset] at hcourse
    rw [← hsignature.generics_eq]
    exact hcourse.filter_isCall

/-- A method whose only parameter is an output, which it sets. -/
def stampMethod : Method (.single Unit ⟨"Stamp"⟩) where
  name := "Now"
  parameters := [⟨"time", .base "u8", .out⟩]
  returnType := .void
  generics := []
  remoting := .direct
  handler _ := do
    HandlerM.onArguments (Arguments.set 0 (.u8 9))
    pure .void

/-- A service whose only method reads nothing from its request. -/
def stamp : Service (.single Unit ⟨"Stamp"⟩) := ⟨"Stamp", none, [stampMethod], []⟩

/-- The path to the method. -/
def stampPath : ServicePath := ⟨"Stamp", [], "Now", by decide⟩

/-- The counter sees its two bytes alike behind another byte and in front of two others. The stamp
does not see that its offset is beyond the buffer. -/
theorem call_reads_own_request_counter :
    (∃ invoker, (counter.compile counterPath [] (.run [.registerStandard] .empty)).1.value =
        .ok invoker ∧
      invoker.ActsAlike () () ([7] ++ [2, 3]) 1 [2, 3] 0 ∧
      invoker.Observed () ([2, 3] ++ [9, 9]) 0 () (.ready (.ok [5, 3, 1])) ()
        [.access 0 (), .call () ⟨[.val (some (.u8 2)), .ref (.u8 3), .out none], []⟩]) ∧
    ∃ invoker, (stamp.compile stampPath [] (.run [.registerStandard] .empty)).1.value =
        .ok invoker ∧
      invoker.ActsAlike () () [] 300 [1, 2] 0 ∧
      invoker.Observed () [] 300 () (.ready (.ok [9])) () [.call () ⟨[.out none], []⟩] := by
  have hstamp : stamp.Locates stampPath [] stampMethod := ⟨rfl, stamp, .here stamp, rfl⟩
  constructor
  · refine ⟨_, rfl, ?_⟩
    obtain ⟨hbefore, hbehind, -⟩ :=
      call_reads_own_request [] rfl counter counterPath [] _ rfl
    exact ⟨hbefore () () [7] [2, 3],
      hbehind () () [2, 3] _ () _ ⟨rfl, rfl, rfl, rfl⟩ rfl [9, 9]⟩
  · refine ⟨_, rfl, ?_⟩
    obtain ⟨-, -, _, _, hlocates, houtputs⟩ :=
      call_reads_own_request [] rfl stamp stampPath [] _ rfl
    obtain ⟨rfl, rfl⟩ := hstamp.unique hlocates
    obtain ⟨-, hcalls⟩ := houtputs (by decide)
    exact ⟨(hcalls () () [] 300 [1, 2] 0).1, ⟨rfl, rfl, rfl, rfl⟩⟩

end Service

end Switchboard
