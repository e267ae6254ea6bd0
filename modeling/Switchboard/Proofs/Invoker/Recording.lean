import Switchboard.Invoker.Basic
import Switchboard.Proofs.Action

/-!
# What a call does to its host

An `Effect` is one call of code of the host: of the accessor at some position of the path, or of the
handler. `Invoker.recorded` is the same invoker on a host that keeps a list of its effects, and
`Follows` says which effects the way along accessors has and where it ends. The main result,
`Invoker.follow_of_follows`, says that this is what following the accessors does, recorded or not.
-/

namespace Switchboard

variable {host : Host}

/-- A call of an accessor on a service object, or of the handler with its arguments. -/
inductive Effect (host : Host) where
  | access (position : Nat) (object : host.Object)
  | call (object : host.Object) (arguments : Arguments)

/-- Whether an effect is a call of the handler. -/
def Effect.isCall : Effect host → Bool
  | access _ _ => false
  | call _ _ => true

/-- The host that keeps a list of its effects, the first one first. -/
def Host.recording (host : Host) : Host where
  State := host.State × List (Effect host)
  Object := host.Object
  typeOf := host.typeOf

/-- The accessor at `position`, which notes that it is called. -/
def recordAccess (position : Nat) (accessor : Accessor host) : Accessor host.recording :=
  fun object recorded =>
    match accessor object recorded.1 with
    | .ok next after => .ok next (after, recorded.2 ++ [.access position object])
    | .error error after => .error error (after, recorded.2 ++ [.access position object])

/-- The accessors from `position` on, each of which notes that it is called. -/
def recordAll (position : Nat) : List (Accessor host) → List (Accessor host.recording)
  | [] => []
  | accessor :: accessors => recordAccess position accessor :: recordAll (position + 1) accessors

/-- An operation in progress on a host that keeps its effects. Being asked is not one of them. -/
def recordOperation (operation : PendingOperation host) : PendingOperation host.recording :=
  fun recorded => ((operation recorded.1).1, (operation recorded.1).2, recorded.2)

/-- What a handler of the recording host returns. -/
def Returned.recorded : Returned host → Returned host.recording
  | void => .void
  | value result => .value result
  | pending operation => .pending (recordOperation operation)

/-- The response of a call on the recording host. -/
def Response.recorded : Response host → Response host.recording
  | ready result => .ready result
  | pending invoker result operation => .pending invoker result (recordOperation operation)

/-- The handler, which notes that it is called. -/
def recordCall (handler : Handler host) : Handler host.recording :=
  fun object call =>
    match handler object ⟨call.arguments, call.state.1⟩ with
    | .ok returned after =>
        .ok returned.recorded
          ⟨after.arguments, after.state, call.state.2 ++ [.call object call.arguments]⟩
    | .error error after =>
        .error error ⟨after.arguments, after.state, call.state.2 ++ [.call object call.arguments]⟩

/-- The invoker on the recording host. -/
def Invoker.recorded (invoker : Invoker host) : Invoker host.recording where
  name := invoker.name
  path := invoker.path
  serviceType := invoker.serviceType
  navigation := recordAll 0 invoker.navigation
  handler := recordCall invoker.handler
  signature := invoker.signature

/-- `Follows position accessors object state outcome after effects` says that the way along the
accessors from `object` on comes to `outcome`: every accessor is called once, on what the one before
it gave, up to the first that fails. -/
inductive Follows : Nat → List (Accessor host) → host.Object → host.State →
    Except MethodError host.Object → host.State → List (Effect host) → Prop where
  | arrived (position object state) : Follows position [] object state (.ok object) state []
  | failed (position accessor accessors object state error after) :
      accessor object state = .error error after →
      Follows position (accessor :: accessors) object state (.error error) after
        [.access position object]
  | next (position accessor accessors object state reached middle outcome after effects) :
      accessor object state = .ok reached middle →
      Follows (position + 1) accessors reached middle outcome after effects →
      Follows position (accessor :: accessors) object state outcome after
        (.access position object :: effects)

theorem exists_follows (position : Nat) (accessors : List (Accessor host)) (object : host.Object)
    (state : host.State) : ∃ outcome after effects,
      Follows position accessors object state outcome after effects := by
  induction accessors generalizing position object state with
  | nil => exact ⟨_, _, _, .arrived position object state⟩
  | cons accessor accessors ih =>
      cases haccess : accessor object state with
      | ok reached middle =>
          obtain ⟨outcome, after, effects, hrest⟩ := ih (position + 1) reached middle
          exact ⟨outcome, after, _, .next _ _ _ _ _ _ _ _ _ _ haccess hrest⟩
      | error error after => exact ⟨_, _, _, .failed _ _ accessors _ _ _ _ haccess⟩

/-- The handler is not called on the way along accessors. -/
theorem Follows.filter_isCall {position : Nat} {accessors : List (Accessor host)}
    {object : host.Object} {state after : host.State} {outcome : Except MethodError host.Object}
    {effects : List (Effect host)}
    (h : Follows position accessors object state outcome after effects) :
    effects.filter Effect.isCall = [] := by
  induction h with
  | arrived => rfl
  | failed => rfl
  | next position accessor accessors object state reached middle outcome after effects _ _ ih =>
      rw [List.filter_cons, ih]
      rfl

namespace Invoker

/-- Following accessors goes the way that `Follows` describes, and a recording host keeps its
effects. -/
theorem follow_of_follows {position : Nat} {accessors : List (Accessor host)}
    {object : host.Object} {state after : host.State} {outcome : Except MethodError host.Object}
    {effects : List (Effect host)}
    (h : Follows position accessors object state outcome after effects) :
    follow accessors object state = ended outcome after ∧
      ∀ before, follow (recordAll position accessors) object (state, before) =
        ended outcome (after, before ++ effects) := by
  induction h with
  | arrived position object state =>
      refine ⟨rfl, ?_⟩
      intro before
      rw [List.append_nil]
      rfl
  | failed position accessor accessors object state error after haccess =>
      refine ⟨Action.bind_of_error haccess, ?_⟩
      intro before
      have hrecorded : recordAccess position accessor object (state, before) =
          .error error (after, before ++ [.access position object]) := by
        simp only [recordAccess, haccess]
      exact Action.bind_of_error hrecorded
  | next position accessor accessors object state reached middle outcome after effects haccess _
      ih =>
      obtain ⟨hplain, hrecording⟩ := ih
      refine ⟨(Action.bind_of_ok haccess).trans hplain, ?_⟩
      intro before
      have hrecorded : recordAccess position accessor object (state, before) =
          .ok reached (middle, before ++ [.access position object]) := by
        simp only [recordAccess, haccess]
      have hrest := hrecording (before ++ [.access position object])
      rw [List.append_assoc] at hrest
      exact (Action.bind_of_ok hrecorded).trans hrest

/-- The root type is checked alike. -/
theorem checkType_recorded (invoker : Invoker host) (object : host.Object) :
    invoker.recorded.checkType object = invoker.checkType object := rfl

/-- The response is made alike. -/
theorem respond_recorded (invoker : Invoker host) (returned : Returned host)
    (arguments : Arguments) :
    invoker.recorded.respond returned.recorded arguments =
      (invoker.respond returned arguments).map Response.recorded := by
  simp only [respond, recorded]
  cases invoker.signature.completion with
  | direct layout =>
      have hresult : directResult invoker.signature layout returned.recorded =
          directResult invoker.signature layout returned := by cases returned <;> rfl
      simp only [hresult]
      cases directResult invoker.signature layout returned with
      | error error => rfl
      | ok result => cases arguments.response <;> rfl
  | async result => cases returned <;> rfl

end Invoker

end Switchboard
