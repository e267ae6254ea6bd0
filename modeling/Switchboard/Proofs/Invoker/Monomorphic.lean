import Switchboard.Proofs.Invoker.Instance
import Switchboard.Proofs.Invoker.Stages

/-!
# Generic methods and their instances

`Handler.IgnoresGenerics` says that it makes no difference to a handler which types the generics of
its method stand for. The main result, `Service.instance_acts_alike`, says that a service with an
instance in the place of a generic method compiles with the same error or to an invoker of which
every call goes alike, if the handler ignores the generics.
-/

namespace Switchboard

variable {host : Host}

/-- Two ends of a handler between which its caller sees no difference. -/
inductive EndsAlike : EStateM.Result MethodError (Call host) (Returned host) →
    EStateM.Result MethodError (Call host) (Returned host) → Prop where
  | returned (returned after other) : other.arguments.slots = after.arguments.slots →
      other.state = after.state → EndsAlike (.ok returned after) (.ok returned other)
  | failed (error after other) : other.state = after.state →
      EndsAlike (.error error after) (.error error other)

/-- The handler ends alike whichever types it is told. -/
def Handler.IgnoresGenerics (handler : Handler host) : Prop :=
  ∀ object slots types others state,
    EndsAlike (handler object ⟨⟨slots, types⟩, state⟩) (handler object ⟨⟨slots, others⟩, state⟩)

section Handler

variable {handler : Handler host} {object : host.Object} {slots : List Slot}
  {types others : List TypeExpr} {state : host.State} {after : Call host}

theorem Handler.IgnoresGenerics.of_returned (h : handler.IgnoresGenerics) {returned : Returned host}
    (hreturned : handler object ⟨⟨slots, types⟩, state⟩ = .ok returned after) :
    ∃ other, handler object ⟨⟨slots, others⟩, state⟩ = .ok returned other ∧
      other.arguments.slots = after.arguments.slots ∧ other.state = after.state := by
  have halike := h object slots types others state
  rw [hreturned] at halike
  generalize handler object ⟨⟨slots, others⟩, state⟩ = ending at halike
  cases halike with
  | returned _ _ other hslots hstate => exact ⟨other, rfl, hslots, hstate⟩

theorem Handler.IgnoresGenerics.of_failed (h : handler.IgnoresGenerics) {error : MethodError}
    (hfailed : handler object ⟨⟨slots, types⟩, state⟩ = .error error after) :
    ∃ other, handler object ⟨⟨slots, others⟩, state⟩ = .error error other ∧
      other.state = after.state := by
  have halike := h object slots types others state
  rw [hfailed] at halike
  generalize handler object ⟨⟨slots, others⟩, state⟩ = ending at halike
  cases halike with
  | failed _ _ other hstate => exact ⟨other, rfl, hstate⟩

end Handler

/-- An effect without the types that a handler is told. -/
def Effect.withoutGenerics : Effect host → Effect host
  | access position object => .access position object
  | call object arguments => .call object { arguments with generics := [] }

/-- There are no such types on the way along accessors. -/
theorem Follows.map_withoutGenerics {position : Nat} {accessors : List (Accessor host)}
    {object : host.Object} {state after : host.State} {outcome : Except MethodError host.Object}
    {effects : List (Effect host)}
    (h : Follows position accessors object state outcome after effects) :
    effects.map Effect.withoutGenerics = effects := by
  induction h with
  | arrived => rfl
  | failed => rfl
  | next position accessor accessors object state reached middle outcome after effects _ _ ih =>
      rw [List.map_cons, ih]
      rfl

namespace Invoker

variable {invoker : Invoker host} {object : host.Object}
  {request : Except CodecError (List Slot)} {state after : host.State} {response : Response host}

/-- The response does not depend on the types that the handler was told. -/
theorem Responds.withoutGenerics {returned : Returned host} {slots : List Slot}
    (h : invoker.Responds returned slots response) :
    invoker.withoutGenerics.Responds returned slots response := by
  cases h with
  | faulty error hremoting hfault => exact .faulty error hremoting hfault
  | encoded hremoting hfault => exact .encoded hremoting hfault
  | awaited result operation hasync hreturned => exact .awaited result operation hasync hreturned
  | notPending result hasync hreturned => exact .notPending result hasync hreturned

/-- A call goes the same way when a handler that ignores the types is not told them. -/
theorem Course.withoutGenerics {effects : List (Effect host)}
    (hignores : invoker.handler.IgnoresGenerics)
    (h : invoker.Course object request state response after effects) :
    invoker.withoutGenerics.Course object request state response after
      (effects.map Effect.withoutGenerics) := by
  cases h with
  | wrongType type hdeclared hother => exact .wrongType type hdeclared hother
  | accessorFailed error after effects hadmits hfollows =>
      rw [hfollows.map_withoutGenerics]
      exact .accessorFailed error after effects hadmits hfollows
  | undecodable target after effects error hadmits hfollows hrequest =>
      rw [hfollows.map_withoutGenerics]
      exact .undecodable target after effects error hadmits hfollows hrequest
  | methodFailed target middle effects slots error final hadmits hfollows hrequest hhandler =>
      obtain ⟨other, hother, hstate⟩ := hignores.of_failed hhandler
      rw [List.map_append, hfollows.map_withoutGenerics, ← hstate]
      exact .methodFailed target middle effects slots error other hadmits hfollows hrequest hother
  | returned target middle effects slots returned final response hadmits hfollows hrequest hhandler
      hresponds =>
      obtain ⟨other, hother, hslots, hstate⟩ := hignores.of_returned hhandler
      rw [← hslots] at hresponds
      rw [List.map_append, hfollows.map_withoutGenerics, ← hstate]
      exact .returned target middle effects slots returned other response hadmits hfollows hrequest
        hother hresponds.withoutGenerics

end Invoker

namespace Service

/-- A service with an instance in the place of a generic method compiles as the service does for the
types of the instance: with the same error, or to the same invoker but for the types that the
handler is told. If the handler ignores them, every call is seen to go alike. -/
theorem instance_acts_alike (steps : List Registry.Step) (service : Service host)
    (path : ServicePath) (accessors : List (Accessor host)) (method monomorphic : Method host)
    (types : List TypeExpr) (hlocates : service.Locates path accessors method)
    (harity : method.generics.length = types.length)
    (hinstance : method.Instantiates types monomorphic) :
    let registry := Registry.run steps .empty
    let generic := service.compile path types registry
    let instantiated :=
      (service.replaceMethod monomorphic path.subservices).compile path [] registry
    instantiated.2 = generic.2 ∧ instantiated.1.log = generic.1.log ∧
    ((∃ error, generic.1.value = .error error ∧ instantiated.1.value = .error error) ∨
      ∃ invoker other, generic.1.value = .ok invoker ∧ instantiated.1.value = .ok other ∧
        other = invoker.withoutGenerics ∧
        (method.handler.IgnoresGenerics → ∀ (object : host.Object) (buffer : Bytes) (offset : Nat)
          (state : host.State), ∃ response after effects,
            invoker.Observed object buffer offset state response after effects ∧
            other.Observed object buffer offset state response after
              (effects.map Effect.withoutGenerics))) := by
  intro registry generic instantiated
  have hcompile : instantiated =
      (⟨generic.1.value.map Invoker.withoutGenerics, generic.1.log⟩, generic.2) := by
    have hreplaced := service.compile_replaceMethod hlocates harity registry
    rw [hinstance.instantiate_eq] at hreplaced
    exact hreplaced
  refine ⟨by rw [hcompile], by rw [hcompile], ?_⟩
  have hregistry := Registry.run_caches steps
  have hspec := (service.compile_spec hregistry path types).2
  have hotherSpec := ((service.replaceMethod monomorphic path.subservices).compile_spec hregistry
    path []).2
  cases hvalue : generic.1.value with
  | error error =>
      refine .inl ⟨error, rfl, ?_⟩
      rw [hcompile, hvalue]
      rfl
  | ok invoker =>
      have hother : instantiated.1.value = .ok invoker.withoutGenerics := by
        rw [hcompile, hvalue]
        rfl
      refine .inr ⟨invoker, _, rfl, hother, rfl, ?_⟩
      rw [hvalue] at hspec
      rw [hother] at hotherSpec
      obtain ⟨reached, found, hcompiles⟩ := hspec
      obtain ⟨_, _, hotherCompiles⟩ := hotherSpec
      obtain ⟨-, rfl⟩ := hcompiles.locates.unique hlocates
      intro hignores object buffer offset state
      rw [← hcompiles.handler_eq] at hignores
      obtain ⟨response, after, effects, hcourse⟩ := Invoker.exists_course hcompiles.signature object
        (Invoker.requestSlots invoker.signature.parameters buffer offset) state
      exact ⟨response, after, effects, Invoker.observed_of_course hcompiles.signature hcourse,
        Invoker.observed_of_course hotherCompiles.signature (hcourse.withoutGenerics hignores)⟩

/-- A method that gives back what it is given, which is of the type `type`. -/
def echoOf (generics : List String) (type : TypeExpr) : Method (.single Unit ⟨"Echo"⟩) where
  name := "Same"
  parameters := [⟨"value", type, .val⟩]
  returnType := type
  generics := generics
  remoting := .direct
  handler _ := do
    let value ← HandlerM.onArguments (Arguments.takeValue 0)
    pure (.value value)

/-- A service whose only method is generic. -/
def echo : Service (.single Unit ⟨"Echo"⟩) :=
  ⟨"Echo", none, [echoOf ["T"] (.generic "T")], []⟩

/-- The path to the method. -/
def echoPath : ServicePath := ⟨"Echo", [], "Same", by decide⟩

/-- The handler looks at nothing but the first slot. -/
theorem echoOf_ignoresGenerics (generics : List String) (element : TypeExpr) :
    (echoOf generics element).handler.IgnoresGenerics := by
  intro object slots types others state
  rcases slots with _ | ⟨slot, slots⟩
  · exact .failed _ _ _ rfl
  · rcases slot with (_ | value) | value | value
    · exact .failed _ _ _ rfl
    · exact .returned _ _ _ rfl rfl
    · exact .failed _ _ _ rfl
    · exact .failed _ _ _ rfl

/-- With `u8` for `T`, the instance compiles, and a call of it gives back the byte that it is given.
With `Vec<T>` for `T`, the `T` that is put in stays unresolved in both. -/
theorem instance_acts_alike_echo :
    let registry := Registry.run [.registerStandard] .empty
    (∃ other, ((echo.replaceMethod (echoOf [] (.base "u8")) []).compile echoPath []
        registry).1.value = .ok other ∧
      other.Observed () [7, 8] 1 () (.ready (.ok [8])) () [.call () ⟨[.val (some (.u8 8))], []⟩]) ∧
    ((echo.replaceMethod (echoOf [] (.named "Vec" [.generic "T"])) []).compile echoPath []
      registry).1.value = .error (.unresolvedGeneric "Same" "T") := by
  have hlocates : echo.Locates echoPath [] (echoOf ["T"] (.generic "T")) :=
    ⟨rfl, echo, .here echo, rfl⟩
  have hinstance : ∀ type, (echoOf ["T"] (.generic "T")).Instantiates [type] (echoOf [] type) :=
    fun _ => (Method.instantiates_iff rfl).2 rfl
  constructor
  · obtain ⟨-, -, hends⟩ := instance_acts_alike [.registerStandard] echo echoPath [] _ _ _
      hlocates rfl (hinstance (.base "u8"))
    rcases hends with ⟨error, herror, -⟩ | ⟨invoker, other, hinvoker, hother, -, hcalls⟩
    · exact nomatch herror
    · obtain rfl := Except.ok.inj hinvoker
      obtain ⟨response, after, effects, hcall, hotherCall⟩ :=
        hcalls (echoOf_ignoresGenerics _ _) () [7, 8] 1 ()
      obtain rfl : .ready (.ok [8]) = response := hcall.response_eq
      obtain ⟨-, heffects⟩ := Prod.mk.inj hcall.recorded_state_eq
      obtain rfl : [.call () ⟨[.val (some (.u8 8))], [.base "u8"]⟩] = effects := heffects
      exact ⟨other, hother, hotherCall⟩
  · obtain ⟨-, -, hends⟩ := instance_acts_alike [.registerStandard] echo echoPath [] _ _ _
      hlocates rfl (hinstance (.named "Vec" [.generic "T"]))
    rcases hends with ⟨error, herror, hotherError⟩ | ⟨invoker, other, hinvoker, -⟩
    · obtain rfl := Except.error.inj herror
      exact hotherError
    · exact nomatch hinvoker

end Service

end Switchboard
