import Switchboard.Proofs.Invoker.Outcome
import Switchboard.Proofs.Invoker.Recording
import Switchboard.Proofs.Registry.History

/-!
# The stages of a call

`Invoker.Course` says how a call goes: which of its stages fails first, or what comes of the
handler, with the effects up to there and none after it. The main result, `Service.invoke_course`,
says that every call of a compiled invoker goes as `Invoker.Course` says and in no other way.
-/

namespace Switchboard

variable {host : Host}

namespace Invoker

variable {invoker : Invoker host} {method : Method host} {generics : List TypeExpr}
  {catalog : Catalog}

section Run

variable {object target : host.Object} {buffer : Bytes} {offset : Nat}
  {state middle after : host.State} {slots : List Slot}

/-- The response and the state that a call ends with. -/
theorem invoke_eq (invoker : Invoker host) (object : host.Object) (buffer : Bytes) (offset : Nat)
    (state : host.State) {result : Except InvokeError (Response host)} {after : host.State}
    (h : invoker.run object buffer offset state = ended result after) :
    (invoker.invoke object buffer offset state).1.value = .of result ∧
      (invoker.invoke object buffer offset state).2 = after := by
  unfold invoke
  rw [h]
  cases result <;> exact ⟨rfl, rfl⟩

theorem run_of_wrongType {error : MethodError} (htype : invoker.checkType object = .error error) :
    invoker.run object buffer offset state = ended (.error (.method error)) state := by
  unfold run
  rw [htype]
  rfl

theorem run_of_accessorFailed (htype : invoker.checkType object = .ok ()) {error : MethodError}
    (hfollow : follow invoker.navigation object state = .error error after) :
    invoker.run object buffer offset state = ended (.error (.method error)) after := by
  unfold run
  rw [htype]
  exact (Action.bind_of_ok rfl).trans (Action.bind_of_error (Action.adaptExcept_of_error hfollow))

/-- A call that has come to its target decodes the request, calls the handler and responds. -/
theorem run_of_target (htype : invoker.checkType object = .ok ())
    (hfollow : follow invoker.navigation object state = .ok target middle) :
    invoker.run object buffer offset state = (do
      let slots ← MonadExcept.ofExcept
        ((requestSlots invoker.signature.parameters buffer offset).mapError .codec)
      let (returned, arguments) ←
        (call invoker.handler target ⟨slots, invoker.signature.generics⟩).adaptExcept .method
      MonadExcept.ofExcept (invoker.respond returned arguments) : InvokeM host _) middle := by
  unfold run
  rw [htype]
  exact (Action.bind_of_ok rfl).trans (Action.bind_of_ok (Action.adaptExcept_of_ok hfollow))

theorem run_of_undecodable (htype : invoker.checkType object = .ok ())
    (hfollow : follow invoker.navigation object state = .ok target middle) {error : CodecError}
    (hslots : requestSlots invoker.signature.parameters buffer offset = .error error) :
    invoker.run object buffer offset state = ended (.error (.codec error)) middle := by
  rw [run_of_target htype hfollow, hslots]
  rfl

theorem run_of_methodFailed (htype : invoker.checkType object = .ok ())
    (hfollow : follow invoker.navigation object state = .ok target middle)
    (hslots : requestSlots invoker.signature.parameters buffer offset = .ok slots)
    {error : MethodError}
    (hcall : call invoker.handler target ⟨slots, invoker.signature.generics⟩ middle =
      .error error after) :
    invoker.run object buffer offset state = ended (.error (.method error)) after := by
  rw [run_of_target htype hfollow, hslots]
  exact (Action.bind_of_ok rfl).trans (Action.bind_of_error (Action.adaptExcept_of_error hcall))

theorem run_of_returned (htype : invoker.checkType object = .ok ())
    (hfollow : follow invoker.navigation object state = .ok target middle)
    (hslots : requestSlots invoker.signature.parameters buffer offset = .ok slots)
    {returned : Returned host} {arguments : Arguments}
    (hcall : call invoker.handler target ⟨slots, invoker.signature.generics⟩ middle =
      .ok (returned, arguments) after) :
    invoker.run object buffer offset state = ended (invoker.respond returned arguments) after := by
  rw [run_of_target htype hfollow, hslots]
  refine (Action.bind_of_ok rfl).trans ?_
  refine (Action.bind_of_ok (Action.adaptExcept_of_ok hcall)).trans ?_
  show (MonadExcept.ofExcept (invoker.respond returned arguments) : InvokeM host _) after = _
  cases invoker.respond returned arguments with
  | ok response => rfl
  | error error => rfl

end Run

/-- `invoker.Admits object` says that `object` has the type that the root of the services declares,
if it declares one. -/
def Admits (invoker : Invoker host) (object : host.Object) : Prop :=
  ∀ type, invoker.serviceType = some type → host.typeOf object = type

theorem checkType_of_admits {object : host.Object} (h : invoker.Admits object) :
    invoker.checkType object = .ok () := by
  unfold checkType
  cases htype : invoker.serviceType with
  | none => rfl
  | some type => simp [Host.expect, h type htype]

/-- `invoker.Course object request state response after effects` says how a call on `object` goes
when decoding gives `request`. The first stage that fails decides the response, and there are no
effects after it. What happens before decoding does not depend on `request`. -/
inductive Course (invoker : Invoker host) (object : host.Object)
    (request : Except CodecError (List Slot)) (state : host.State) :
    Response host → host.State → List (Effect host) → Prop where
  | wrongType (type) : invoker.serviceType = some type → host.typeOf object ≠ type →
      Course invoker object request state (.ready (.error (.method (.serviceType type)))) state []
  | accessorFailed (error after effects) : invoker.Admits object →
      Follows 0 invoker.navigation object state (.error error) after effects →
      Course invoker object request state (.ready (.error (.method error))) after effects
  | undecodable (target after effects error) : invoker.Admits object →
      Follows 0 invoker.navigation object state (.ok target) after effects →
      request = .error error →
      Course invoker object request state (.ready (.error (.codec error))) after effects
  | methodFailed (target middle effects slots error final) : invoker.Admits object →
      Follows 0 invoker.navigation object state (.ok target) middle effects →
      request = .ok slots →
      invoker.handler target ⟨⟨slots, invoker.signature.generics⟩, middle⟩ = .error error final →
      Course invoker object request state (.ready (.error (.method error))) final.state
        (effects ++ [.call target ⟨slots, invoker.signature.generics⟩])
  | returned (target middle effects slots returned final response) : invoker.Admits object →
      Follows 0 invoker.navigation object state (.ok target) middle effects →
      request = .ok slots →
      invoker.handler target ⟨⟨slots, invoker.signature.generics⟩, middle⟩ = .ok returned final →
      invoker.Responds returned final.arguments.slots response →
      Course invoker object request state response final.state
        (effects ++ [.call target ⟨slots, invoker.signature.generics⟩])

/-- `invoker.Observed object buffer offset state response after effects` says what is seen of a
call: its response, the state that it leaves behind, and the effects on a recording host, on which
nothing else is different. -/
structure Observed (invoker : Invoker host) (object : host.Object) (buffer : Bytes) (offset : Nat)
    (state : host.State) (response : Response host) (after : host.State)
    (effects : List (Effect host)) : Prop where
  response_eq : (invoker.invoke object buffer offset state).1.value = response
  state_eq : (invoker.invoke object buffer offset state).2 = after
  recorded_response_eq :
    (invoker.recorded.invoke object buffer offset (state, [])).1.value = response.recorded
  recorded_state_eq :
    (invoker.recorded.invoke object buffer offset (state, [])).2 = (after, effects)

/-- What two runs that end alike are seen to do. -/
theorem observed_of_run {object : host.Object} {buffer : Bytes} {offset : Nat}
    {state after : host.State} {effects : List (Effect host)}
    {result : Except InvokeError (Response host)}
    (hplain : invoker.run object buffer offset state = ended result after)
    (hrecorded : invoker.recorded.run object buffer offset (state, []) =
      ended (result.map Response.recorded) (after, effects)) :
    invoker.Observed object buffer offset state (.of result) after effects := by
  obtain ⟨hresponse, hafter⟩ := invoke_eq invoker object buffer offset state hplain
  obtain ⟨hrecordedResponse, hrecordedAfter⟩ :=
    invoke_eq invoker.recorded object buffer offset (state, []) hrecorded
  refine ⟨hresponse, hafter, ?_, hrecordedAfter⟩
  rw [hrecordedResponse]
  cases result <;> rfl

theorem call_recorded (handler : Handler host) (object : host.Object) (arguments : Arguments)
    (state : host.State) (before : List (Effect host)) :
    call (recordCall handler) object arguments (state, before) =
      match handler object ⟨arguments, state⟩ with
      | .ok returned final =>
          .ok (returned.recorded, final.arguments) (final.state, before ++ [.call object arguments])
      | .error error final => .error error (final.state, before ++ [.call object arguments]) := by
  unfold call EStateM.run recordCall
  cases handler object ⟨arguments, state⟩ with
  | ok returned final => rfl
  | error error final => rfl

/-- A call that goes in some way is seen to go in this way. -/
theorem observed_of_course (hsignature : invoker.signature.Describes method generics catalog)
    {object : host.Object} {buffer : Bytes} {offset : Nat} {state after : host.State}
    {response : Response host} {effects : List (Effect host)}
    (h : invoker.Course object (requestSlots invoker.signature.parameters buffer offset) state
      response after effects) :
    invoker.Observed object buffer offset state response after effects := by
  cases h with
  | wrongType type hdeclared hother =>
      have hcheck : invoker.checkType object = .error (.serviceType type) := by
        simp [checkType, hdeclared, Host.expect, hother]
      exact observed_of_run (run_of_wrongType hcheck)
        (run_of_wrongType ((checkType_recorded invoker object).trans hcheck))
  | accessorFailed error after effects hadmits hfollows =>
      have hcheck := checkType_of_admits hadmits
      obtain ⟨hplain, hrecording⟩ := follow_of_follows hfollows
      exact observed_of_run (run_of_accessorFailed hcheck hplain)
        (run_of_accessorFailed ((checkType_recorded invoker object).trans hcheck) (hrecording []))
  | undecodable target after effects error hadmits hfollows hrequest =>
      have hcheck := checkType_of_admits hadmits
      obtain ⟨hplain, hrecording⟩ := follow_of_follows hfollows
      exact observed_of_run (run_of_undecodable hcheck hplain hrequest)
        (run_of_undecodable ((checkType_recorded invoker object).trans hcheck) (hrecording [])
          hrequest)
  | methodFailed target middle effects slots error final hadmits hfollows hrequest hhandler =>
      have hcheck := checkType_of_admits hadmits
      obtain ⟨hplain, hrecording⟩ := follow_of_follows hfollows
      have hcall : call invoker.handler target ⟨slots, invoker.signature.generics⟩ middle =
          .error error final.state := by
        simp [call, EStateM.run, hhandler]
      have hrecorded := call_recorded invoker.handler target
        ⟨slots, invoker.signature.generics⟩ middle effects
      rw [hhandler] at hrecorded
      exact observed_of_run (run_of_methodFailed hcheck hplain hrequest hcall)
        (run_of_methodFailed ((checkType_recorded invoker object).trans hcheck) (hrecording [])
          hrequest hrecorded)
  | returned target middle effects slots returned final response hadmits hfollows hrequest hhandler
      hresponds =>
      have hcheck := checkType_of_admits hadmits
      obtain ⟨hplain, hrecording⟩ := follow_of_follows hfollows
      have hcall : call invoker.handler target ⟨slots, invoker.signature.generics⟩ middle =
          .ok (returned, final.arguments) final.state := by
        simp [call, EStateM.run, hhandler]
      have hrecorded := call_recorded invoker.handler target
        ⟨slots, invoker.signature.generics⟩ middle effects
      rw [hhandler] at hrecorded
      rw [← (responds_iff hsignature returned final.arguments response).1 hresponds]
      refine observed_of_run (run_of_returned hcheck hplain hrequest hcall) ?_
      -- On the recording host the same is returned, and the same response is made of it.
      rw [← respond_recorded]
      exact run_of_returned ((checkType_recorded invoker object).trans hcheck) (hrecording [])
        hrequest hrecorded

/-- Every call goes in some way. -/
theorem exists_course (hsignature : invoker.signature.Describes method generics catalog)
    (object : host.Object) (request : Except CodecError (List Slot)) (state : host.State) :
    ∃ response after effects, invoker.Course object request state response after effects := by
  by_cases hadmits : invoker.Admits object
  · obtain ⟨outcome, middle, effects, hfollows⟩ := exists_follows 0 invoker.navigation object state
    cases outcome with
    | error error => exact ⟨_, _, _, .accessorFailed error middle effects hadmits hfollows⟩
    | ok target =>
        cases hrequest : request with
        | error error =>
            exact ⟨_, _, _, .undecodable target middle effects error hadmits hfollows rfl⟩
        | ok slots =>
            cases hhandler :
                invoker.handler target ⟨⟨slots, invoker.signature.generics⟩, middle⟩ with
            | error error final =>
                exact ⟨_, _, _, .methodFailed target middle effects slots error final hadmits
                  hfollows rfl hhandler⟩
            | ok returned final =>
                have hresponds := (responds_iff hsignature returned final.arguments _).2 rfl
                exact ⟨_, _, _, .returned target middle effects slots returned final _ hadmits
                  hfollows rfl hhandler hresponds⟩
  · have hwrong : ∃ type, invoker.serviceType = some type ∧ host.typeOf object ≠ type := by
      simpa [Admits] using hadmits
    obtain ⟨type, hdeclared, hother⟩ := hwrong
    exact ⟨_, _, _, .wrongType type hdeclared hother⟩

/-- What is seen of a call is the way that it goes. -/
theorem observed_iff (hsignature : invoker.signature.Describes method generics catalog)
    (object : host.Object) (buffer : Bytes) (offset : Nat) (state : host.State)
    (response : Response host) (after : host.State) (effects : List (Effect host)) :
    invoker.Observed object buffer offset state response after effects ↔
      invoker.Course object (requestSlots invoker.signature.parameters buffer offset) state
        response after effects := by
  constructor
  · intro h
    -- The call goes in some way, and what is seen of it can only be what was seen.
    obtain ⟨response', after', effects', hcourse⟩ := exists_course hsignature object
      (requestSlots invoker.signature.parameters buffer offset) state
    have hseen := observed_of_course hsignature hcourse
    obtain ⟨-, heffects⟩ :=
      Prod.mk.inj (hseen.recorded_state_eq.symm.trans h.recorded_state_eq)
    rw [← h.response_eq, ← h.state_eq, ← heffects, hseen.response_eq, hseen.state_eq]
    exact hcourse
  · exact observed_of_course hsignature

end Invoker

namespace Service

/-- A method with a parameter of each way, which answers every call alike. -/
def counterMethod : Method (.single Unit ⟨"Counter"⟩) where
  name := "Add"
  parameters := [⟨"step", .base "u8", .val⟩, ⟨"total", .base "u8", .ref⟩,
    ⟨"before", .base "u8", .out⟩]
  returnType := .base "bool"
  generics := []
  remoting := .direct
  handler _ := do
    HandlerM.onArguments (Arguments.set 1 (.u8 5))
    HandlerM.onArguments (Arguments.set 2 (.u8 3))
    pure (.value (.bool true))

/-- The way to the object that has the method, which is the root object itself. -/
def counterAccessor : Accessor (.single Unit ⟨"Counter"⟩) := fun object => pure object

/-- A service whose only method belongs to a sub-service. -/
def counter : Service (.single Unit ⟨"Counter"⟩) where
  name := "Counter"
  serviceType := some ⟨"Counter"⟩
  methods := []
  subservices := [⟨"Total", counterAccessor, ⟨"Total", none, [counterMethod], []⟩⟩]

/-- The path to the method of the counter. -/
def counterPath : ServicePath := ⟨"Counter", ["Total"], "Add", by decide⟩

theorem counter_locates : counter.Locates counterPath [counterAccessor] counterMethod :=
  ⟨rfl, _, .through "Total" [] counter _ _ _ rfl (.here _), rfl⟩

theorem counter_follows : Follows 0 [counterAccessor] () () (.ok ()) () [.access 0 ()] :=
  .next _ _ _ _ _ _ _ _ _ _ rfl (.arrived _ _ _)

end Service

end Switchboard
