import Switchboard.Proofs.Invoker.Stages
import Switchboard.Proofs.Service.Addressing

/-!
# The types that services declare

`Service.Admits` says that an object has the type that a node declares, and `Service.KeepsTypes`
that the accessors along a chain lead from objects of the declared types to objects of the declared
types. The main result, `Service.root_type_enforced`, says that every call checks the type of the
root and of no other node: from there on each object is the one that the accessor before it gave,
which has the declared type when the accessors keep the types.
-/

namespace Switchboard

variable {host : Host}

/-- The service object that an effect is on. -/
def Effect.object : Effect host → host.Object
  | access _ object => object
  | call object _ => object

/-- `MayCall way outcome effects` says that `effects` are those of a way along accessors that came
to `outcome`, and then at most a call of the handler on the object that the way came to. -/
inductive MayCall (way : List (Effect host)) (outcome : Except MethodError host.Object) :
    List (Effect host) → Prop where
  | uncalled : MayCall way outcome way
  | called (target arguments) : outcome = .ok target →
      MayCall way outcome (way ++ [.call target arguments])

/-- Whatever is called first is called on the object that the way begins with. -/
theorem Follows.object_of_head {position : Nat} {accessors : List (Accessor host)}
    {object : host.Object} {state after : host.State} {outcome : Except MethodError host.Object}
    {way effects : List (Effect host)}
    (h : Follows position accessors object state outcome after way)
    (heffects : MayCall way outcome effects) {effect : Effect host}
    (hfirst : effects.head? = some effect) : effect.object = object := by
  cases h with
  | arrived =>
      -- Without an accessor the handler comes first.
      cases heffects with
      | uncalled => exact nomatch hfirst
      | called target arguments htarget =>
          cases htarget
          cases hfirst
          rfl
  | failed | next => cases heffects <;> cases hfirst <;> rfl

theorem MayCall.access_mem {way effects : List (Effect host)}
    {outcome : Except MethodError host.Object} (h : MayCall way outcome effects) {position : Nat}
    {object : host.Object} (hmem : .access position object ∈ effects) :
    .access position object ∈ way := by
  cases h with
  | uncalled => exact hmem
  | called target arguments _ =>
      rcases List.mem_append.1 hmem with hway | hcall
      · exact hway
      · exact nomatch List.mem_singleton.1 hcall

/-- The handler is called on the object that the way came to. -/
theorem MayCall.outcome_eq {position : Nat} {accessors : List (Accessor host)}
    {object target : host.Object} {state after : host.State}
    {outcome : Except MethodError host.Object} {way effects : List (Effect host)}
    (h : MayCall way outcome effects)
    (hfollows : Follows position accessors object state outcome after way) {arguments : Arguments}
    (hmem : .call target arguments ∈ effects) : outcome = .ok target := by
  have hway : .call target arguments ∉ way := by
    intro hcall
    have hisCall : Effect.isCall (.call target arguments) = true := rfl
    have hfiltered := List.mem_filter.2 ⟨hcall, hisCall⟩
    rw [hfollows.filter_isCall] at hfiltered
    exact nomatch hfiltered
  cases h with
  | uncalled => exact absurd hmem hway
  | called other others hother =>
      rcases List.mem_append.1 hmem with hcall | hlast
      · exact absurd hcall hway
      · cases List.mem_singleton.1 hlast
        exact hother

/-- A call for which the object is not of the type that the root declares ends there. Any other call
goes along the accessors, and then calls the handler at most. -/
theorem Invoker.Course.cases_type {invoker : Invoker host} {object : host.Object}
    {request : Except CodecError (List Slot)} {state after : host.State} {response : Response host}
    {effects : List (Effect host)}
    (h : invoker.Course object request state response after effects) :
    (∃ type, invoker.serviceType = some type ∧ host.typeOf object ≠ type) ∨
      ∃ outcome reached way,
        Follows 0 invoker.navigation object state outcome reached way ∧
        MayCall way outcome effects := by
  cases h with
  | wrongType type hdeclared hother => exact .inl ⟨type, hdeclared, hother⟩
  | accessorFailed error after effects hadmits hfollows =>
      exact .inr ⟨_, _, effects, hfollows, .uncalled⟩
  | undecodable target after effects error hadmits hfollows _ =>
      exact .inr ⟨_, _, effects, hfollows, .uncalled⟩
  | methodFailed target middle way slots error final hadmits hfollows _ _ =>
      exact .inr ⟨_, _, way, hfollows, .called target _ rfl⟩
  | returned target middle way slots returned final response hadmits hfollows _ _ _ =>
      exact .inr ⟨_, _, way, hfollows, .called target _ rfl⟩

namespace Service

/-- `service.Admits object` says that `object` has the type that `service` declares, if it declares
one. -/
def Admits (service : Service host) (object : host.Object) : Prop :=
  ∀ type, service.serviceType = some type → host.typeOf object = type

/-- The nodes along a chain of sub-services, from the root to the end of the chain. -/
def nodesAlong (service : Service host) (chain : List (Subservice host)) : List (Service host) :=
  service :: chain.map Subservice.service

/-- `service.KeepsTypes chain` says that each accessor along the chain, when it is called on an
object of the type that its node declares, gives only objects of the type that the node behind it
declares. -/
def KeepsTypes (service : Service host) : List (Subservice host) → Prop
  | [] => True
  | subservice :: chain =>
      (∀ object state reached after, service.Admits object →
        subservice.accessor object state = .ok reached after →
        subservice.service.Admits reached) ∧
      subservice.service.KeepsTypes chain

/-- Accessors that keep the types are called on objects of the declared types only, and lead to an
object of the type that the node at the end declares. -/
theorem KeepsTypes.of_follows {service node : Service host} {chain : List (Subservice host)}
    (h : service.KeepsTypes chain) (hchain : service.Chain chain node) {position : Nat}
    {object : host.Object} {state after : host.State} {outcome : Except MethodError host.Object}
    {way : List (Effect host)} (hadmits : service.Admits object)
    (hfollows : Follows position (chain.map Subservice.accessor) object state outcome after way) :
    (∀ place other, .access place other ∈ way → ∃ index owner, place = position + index ∧
      (service.nodesAlong chain)[index]? = some owner ∧ owner.Admits other) ∧
    ∀ target, outcome = .ok target → node.Admits target := by
  induction hchain generalizing position object state outcome after way with
  | here node =>
      cases hfollows
      refine ⟨nofun, ?_⟩
      intro target htarget
      cases htarget
      exact hadmits
  | through service subservice chain node _ _ ih =>
      obtain ⟨haccessor, hrest⟩ := h
      cases hfollows with
      | failed _ _ _ _ _ error after haccess =>
          refine ⟨?_, nofun⟩
          intro place other hmem
          cases List.mem_singleton.1 hmem
          exact ⟨0, service, rfl, rfl, hadmits⟩
      | next _ _ _ _ _ reached middle _ _ way haccess hfollows =>
          obtain ⟨haccesses, htarget⟩ :=
            ih hrest (haccessor object state reached middle hadmits haccess) hfollows
          refine ⟨?_, htarget⟩
          intro place other hmem
          rcases List.mem_cons.1 hmem with hfirst | hlater
          · cases hfirst
            exact ⟨0, service, rfl, rfl, hadmits⟩
          · obtain ⟨index, owner, hplace, howner, hother⟩ := haccesses place other hlater
            exact ⟨index + 1, owner, by omega, howner, hother⟩

open Invoker in
/-- A call with an object of another type than the root declares fails with that type, whatever the
buffer holds, and without any effect. In every other call the accessors on the way are called one on
what the one before gave, the first on the given object, and the handler on what the last one gave,
whatever types the nodes below the root declare. If the accessors keep the types, then everything is
called on an object of the type that its node declares. -/
theorem root_type_enforced (steps : List Registry.Step) (service : Service host)
    (path : ServicePath) (generics : List TypeExpr) (invoker : Invoker host)
    (hcompile : (service.compile path generics (.run steps .empty)).1.value = .ok invoker) :
    ∃ chain node method, service.Addresses path chain node method ∧
      invoker.navigation = chain.map Subservice.accessor ∧ invoker.handler = method.handler ∧
      ∀ (object : host.Object) (buffer : Bytes) (offset : Nat) (state : host.State),
        (¬ service.Admits object → ∃ type, service.serviceType = some type ∧
          invoker.Observed object buffer offset state
            (.ready (.error (.method (.serviceType type)))) state []) ∧
        ∀ response after effects,
          invoker.Observed object buffer offset state response after effects →
          service.Admits object →
          (∃ outcome reached way,
            Follows 0 invoker.navigation object state outcome reached way ∧
            MayCall way outcome effects) ∧
          (∀ effect, effects.head? = some effect → effect.object = object) ∧
          (service.KeepsTypes chain →
            (∀ position other, .access position other ∈ effects →
              ∃ owner, (service.nodesAlong chain)[position]? = some owner ∧ owner.Admits other) ∧
            ∀ target arguments, .call target arguments ∈ effects → node.Admits target) := by
  obtain ⟨accessors, method, hcompiles⟩ := exists_compiles (Registry.run_caches steps) hcompile
  obtain ⟨chain, node, haddresses, haccessors⟩ := exists_addresses_of_locates hcompiles.locates
  have hnavigation := hcompiles.navigation_eq.trans haccessors
  have htype := hcompiles.serviceType_eq
  refine ⟨chain, node, method, haddresses, hnavigation, hcompiles.handler_eq, ?_⟩
  intro object buffer offset state
  have hiff := observed_iff hcompiles.signature object buffer offset state
  constructor
  · intro hrefused
    have hwrong : ∃ type, service.serviceType = some type ∧ host.typeOf object ≠ type := by
      simpa [Admits] using hrefused
    obtain ⟨type, hdeclared, hother⟩ := hwrong
    exact ⟨type, hdeclared, (hiff _ _ _).2 (.wrongType type (htype.trans hdeclared) hother)⟩
  · intro response after effects hobserved hobject
    rcases ((hiff _ _ _).1 hobserved).cases_type with hwrong | hgoes
    · obtain ⟨type, hdeclared, hother⟩ := hwrong
      exact absurd (hobject type (htype ▸ hdeclared)) hother
    · obtain ⟨outcome, reached, way, hfollows, hcalls⟩ := hgoes
      refine ⟨⟨outcome, reached, way, hfollows, hcalls⟩,
        fun _ => hfollows.object_of_head hcalls, ?_⟩
      intro hkeeps
      obtain ⟨haccesses, hends⟩ :=
        hkeeps.of_follows haddresses.leads hobject (hnavigation ▸ hfollows)
      constructor
      · intro position other hmem
        obtain ⟨index, owner, hposition, howner, hother⟩ :=
          haccesses position other (hcalls.access_mem hmem)
        rw [Nat.zero_add] at hposition
        exact ⟨owner, hposition ▸ howner, hother⟩
      · intro target arguments hmem
        exact hends target (hcalls.outcome_eq hfollows hmem)

/-- A host with two objects, a bell and the tower that it belongs to. -/
def towerHost : Host := ⟨Unit, Bool, fun isBell => if isBell then ⟨"Bell"⟩ else ⟨"Tower"⟩⟩

/-- A method that does nothing. -/
def ring : Method towerHost := ⟨"Ring", [], .void, [], .direct, fun _ => pure .void⟩

/-- The bell of a tower. -/
def bell : Service towerHost := ⟨"Bell", some ⟨"Bell"⟩, [ring], []⟩

/-- The bell behind an accessor that gives `object`. -/
def behind (object : Bool) : Subservice towerHost := ⟨"Bell", fun _ => pure object, bell⟩

/-- A tower with a bell behind an accessor that gives `object`. -/
def tower (object : Bool) : Service towerHost := ⟨"Tower", some ⟨"Tower"⟩, [], [behind object]⟩

/-- The path to the method of the bell. -/
def towerPath : ServicePath := ⟨"Tower", ["Bell"], "Ring", by decide⟩

/-- When the accessor gives the bell, a call on the tower comes to an object of the type that the
bell declares. A call on the bell itself is refused. -/
theorem root_type_enforced_tower :
    ∃ invoker, ((tower true).compile towerPath [] (.run [] .empty)).1.value = .ok invoker ∧
      invoker.Observed true [] 0 () (.ready (.error (.method (.serviceType ⟨"Tower"⟩)))) () [] ∧
      ∀ response after effects, invoker.Observed false [] 0 () response after effects →
        ∀ target arguments, .call target arguments ∈ effects → bell.Admits target := by
  refine ⟨_, rfl, ?_⟩
  obtain ⟨chain, node, method, haddresses, -, -, hcalls⟩ :=
    root_type_enforced [] (tower true) towerPath [] _ rfl
  have hnames : ["Bell"] = chain.map Subservice.name := haddresses.subservices_eq
  constructor
  · have hother : ¬ (tower true).Admits true := fun h => absurd (h _ rfl) (by decide)
    obtain ⟨type, htype, hobserved⟩ := (hcalls true [] 0 ()).1 hother
    cases htype
    exact hobserved
  · intro response after effects hobserved target arguments hmem
    have htower : (tower true).Admits false := fun _ h => Option.some.inj h
    have hkept := ((hcalls false [] 0 ()).2 response after effects hobserved htower).2.2
    cases haddresses.leads with
    | here => exact nomatch hnames
    | through _ subservice chain _ hsubservice hchain =>
        obtain rfl : subservice = behind true := List.mem_singleton.1 hsubservice
        cases hchain with
        | through => exact nomatch (List.cons.inj hnames).2
        | here =>
            refine (hkept ⟨?_, trivial⟩).2 target arguments hmem
            intro object state reached after _ hreached type htype
            cases hreached
            exact Option.some.inj htype

/-- When the accessor gives the tower, the method of the bell is called on the tower, and the call
succeeds, although the bell declares another type. -/
theorem inner_type_not_enforced :
    ∃ invoker, ((tower false).compile towerPath [] .empty).1.value = .ok invoker ∧
      (tower false).Addresses towerPath [behind false] bell ring ∧
      invoker.Observed false [] 0 () (.ready (.ok [])) ()
        [.access 0 false, .call false ⟨[], []⟩] ∧
      (tower false).Admits false ∧ ¬ bell.Admits false :=
  ⟨_, rfl, ⟨rfl, .through _ _ _ _ List.mem_cons_self (.here bell), rfl, List.mem_cons_self, rfl⟩,
    ⟨rfl, rfl, rfl, rfl⟩, fun _ => Option.some.inj, fun h => absurd (h _ rfl) (by decide)⟩

end Service

end Switchboard
