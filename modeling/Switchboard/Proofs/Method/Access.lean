import Switchboard.Method.Arguments
import Switchboard.Proofs.Action

/-!
# One access to the arguments of a call

An `Arguments.Step` is one thing that a handler does with one slot. What comes of it is told from
the way of the parameter and from what the slot holds: `Access.faults` lists what can be wrong with
it, in the order of priority, and `Access.effect` says what a slot holds after it. The main result,
`Arguments.Step.ends_perform`, says that a step with a fault fails with the first one and changes
nothing, and that any other step succeeds and changes nothing but what its own slot holds.
-/

namespace Switchboard

/-- The fault of a slot that holds nothing. -/
def Way.absence : Way → ArgumentFault
  | val => .alreadyTaken
  | ref | out => .unassigned

namespace Slot

/-- What the slot holds, if anything. -/
def content : Slot → Option Value
  | val value | out value => value
  | ref value => some value

/-- The slot with another content. A `ref` slot is never left without a value. -/
def fill (content : Option Value) : Slot → Slot
  | val _ => val content
  | ref value => ref (content.getD value)
  | out _ => out content

theorem fill_fill_content (content : Option Value) (slot : Slot) :
    (slot.fill content).fill slot.content = slot := by
  cases slot <;> rfl

@[simp]
theorem way_fill (content : Option Value) (slot : Slot) : (slot.fill content).way = slot.way := by
  cases slot <;> rfl

theorem content_fill_some {value : Value} (slot : Slot) :
    (slot.fill (some value)).content = some value := by
  cases slot <;> rfl

theorem current_eq (slot : Slot) :
    slot.current = match slot.content with
      | some value => .ok value
      | none => .error slot.way.absence := by
  rcases slot with (_ | value) | value | (_ | value) <;> rfl

theorem hold_eq (value : Value) (slot : Slot) : slot.hold value = slot.fill (some value) := by
  cases slot <;> rfl

end Slot

namespace Arguments

/-- What the slot of a parameter holds, if there is one at `index` and it holds anything. -/
def content (arguments : Arguments) (index : Nat) : Option Value :=
  (arguments.slots[index]?).bind Slot.content

/-- What a handler can do with a slot. -/
inductive Access where
  | take (type : ValueType)
  | takeValue
  | get (type : ValueType)
  | update (type : ValueType) (change : Value.OfType type → Value.OfType type)
  | set (value : Value)
  | askWay

/-- What a handler is told when it succeeds: that it is done, what the slot held, or the way of the
parameter, if there is one. -/
inductive Answer where
  | done
  | value (value : Value)
  | way (way : Option Way)

namespace Access

/-- Whether a parameter of this way can be used so at all. -/
def permitted : Access → Way → Bool
  | take _, way | takeValue, way => way = .val
  | set _, way => way.isResponse
  | get _, _ | update _ _, _ | askWay, _ => true

/-- Whether the slot must hold a value. -/
def reads : Access → Bool
  | take _ | takeValue | get _ | update _ _ => true
  | set _ | askWay => false

/-- The type that the value in the slot must have. -/
def type? : Access → Option ValueType
  | take type | get type | update type _ => some type
  | takeValue | set _ | askWay => none

/-- What is wrong with what a slot holds when a value of the type `expected` must be there. -/
def typeFaults (expected : Option ValueType) (content : Option Value) : List ArgumentFault :=
  match expected, content with
  | some type, some value => if value.type = type then [] else [.wrongType type]
  | _, _ => []

/-- What is wrong with an access to a parameter, in the order of priority: that there is none, that
it is of another way, that its slot holds nothing, and that it holds a value of another type. To ask
for the way is never wrong. -/
def faults (access : Access) (way : Option Way) (content : Option Value) : List ArgumentFault :=
  match access, way with
  | askWay, _ => []
  | _, none => [.outOfRange]
  | access, some way =>
      (if access.permitted way then [] else [.wrongWay]) ++
        (if access.reads && content.isNone then [way.absence] else []) ++
        typeFaults access.type? content

section Faults

variable {access : Access} {way : Way} {content : Option Value} {type : ValueType} {value : Value}

theorem faults_some (access : Access) (way : Way) (content : Option Value) :
    access.faults (some way) content =
      (if access.permitted way then [] else [.wrongWay]) ++
        (if access.reads && content.isNone then [way.absence] else []) ++
        typeFaults access.type? content := by
  cases access <;> rfl

theorem faults_of_type_eq (hpermitted : access.permitted way = true)
    (hexpects : access.type? = some type) (htype : value.type = type) :
    access.faults (some way) (some value) = [] := by
  rw [faults_some]
  simp [hpermitted, hexpects, typeFaults, htype]

theorem faults_of_type_ne (hpermitted : access.permitted way = true)
    (hexpects : access.type? = some type) (htype : value.type ≠ type) :
    access.faults (some way) (some value) = [.wrongType type] := by
  rw [faults_some]
  simp [hpermitted, hexpects, typeFaults, htype]

/-- An access without a fault is permitted, and it finds a value if it needs one. -/
theorem permitted_of_faultless (h : access.faults (some way) content = []) :
    access.permitted way = true ∧ (access.reads = true → content.isSome = true) := by
  rw [faults_some, List.append_eq_nil_iff, List.append_eq_nil_iff] at h
  obtain ⟨⟨hpermitted, hreads⟩, _⟩ := h
  refine ⟨by simpa using hpermitted, ?_⟩
  intro hvalue
  simpa [hvalue, Option.isSome_iff_ne_none] using hreads

end Faults

/-- What a handler is told by an access without a fault. -/
def answer (access : Access) (way : Option Way) (content : Option Value) : Option Answer :=
  match access with
  | take _ | takeValue | get _ => content.map .value
  | update _ _ | set _ => some .done
  | askWay => some (.way way)

/-- What the slot holds after an access without a fault. -/
def effect (access : Access) (content : Option Value) : Option Value :=
  match access with
  | take _ | takeValue => none
  | get _ | askWay => content
  | update type change =>
      content.map fun value => if h : value.type = type then (change ⟨value, h⟩).val else value
  | set value => some value

end Access

/-- An access to the parameter at `index`. -/
structure Step where
  index : Nat
  access : Access

namespace Step

/-- Makes the access. -/
def perform (step : Step) : ArgumentsM Answer := do
  match step.access with
  | .take type => pure (.value (← Arguments.take type step.index).val)
  | .takeValue => pure (.value (← Arguments.takeValue step.index))
  | .get type => pure (.value (← Arguments.get type step.index).val)
  | .update type change =>
      Arguments.update type step.index change
      pure .done
  | .set value =>
      Arguments.set step.index value
      pure .done
  | .askWay => pure (.way ((← getThe Arguments).way step.index))

/-- What is wrong with the step. -/
def faults (step : Step) (arguments : Arguments) : List ArgumentFault :=
  step.access.faults (arguments.way step.index) (arguments.content step.index)

end Step

section Slots

variable {arguments : Arguments} {index : Nat} {slot : Slot}

theorem way_of_some (h : arguments.slots[index]? = some slot) :
    arguments.way index = some slot.way := by
  rw [way, h]
  rfl

theorem content_of_some (h : arguments.slots[index]? = some slot) :
    arguments.content index = slot.content := by
  rw [content, h]
  rfl

/-- The arguments with another content of the slot at `index`. -/
def fill (arguments : Arguments) (index : Nat) (content : Option Value) : Arguments :=
  { arguments with slots := arguments.slots.modify index (Slot.fill content) }

theorem fill_same (h : arguments.slots[index]? = some slot) (content : Option Value) :
    (arguments.fill index content).slots[index]? = some (slot.fill content) := by
  show (arguments.slots.modify index _)[index]? = _
  rw [List.getElem?_modify_eq, h]
  rfl

theorem fill_other {other : Nat} (h : other ≠ index) (content : Option Value) :
    (arguments.fill index content).slots[other]? = arguments.slots[other]? :=
  List.getElem?_modify_ne _ _ (Ne.symm h)

theorem way_fill (content : Option Value) (other : Nat) :
    (arguments.fill index content).way other = arguments.way other := by
  by_cases h : other = index
  · subst h
    cases hslot : arguments.slots[other]? with
    | none => simp [way, fill, hslot]
    | some slot =>
        rw [way_of_some hslot, way_of_some (fill_same hslot content), Slot.way_fill]
  · rw [way, way, fill_other h]

/-- Another content is undone by putting back what the slot held. -/
theorem fill_fill_content (content : Option Value) :
    (arguments.fill index content).fill index (arguments.content index) = arguments := by
  have hslots : (arguments.slots.modify index (Slot.fill content)).modify index
      (Slot.fill (arguments.content index)) = arguments.slots := by
    apply List.ext_getElem?
    intro other
    by_cases h : other = index
    · subst h
      rw [List.getElem?_modify_eq, List.getElem?_modify_eq]
      cases hslot : arguments.slots[other]? with
      | none => rfl
      | some slot => simp [content_of_some hslot, Slot.fill_fill_content]
    · rw [List.getElem?_modify_ne _ _ (Ne.symm h), List.getElem?_modify_ne _ _ (Ne.symm h)]
  exact congrArg (Arguments.mk · arguments.generics) hslots

theorem slotAt_of_some (h : arguments.slots[index]? = some slot) :
    slotAt index arguments = .ok slot arguments := by
  simp [slotAt, bind, EStateM.bind, MonadState.get, getThe, MonadStateOf.get, EStateM.get, h, pure,
    EStateM.pure]

theorem slotAt_of_none (h : arguments.slots[index]? = none) :
    slotAt index arguments = .error (.argument index .outOfRange) arguments := by
  simp [slotAt, bind, EStateM.bind, MonadState.get, getThe, MonadStateOf.get, EStateM.get, h, fault,
    throw, throwThe, MonadExceptOf.throw, EStateM.throw]

theorem replace_of_some (h : arguments.slots[index]? = some slot) (content : Option Value) :
    replace index (slot.fill content) arguments = .ok () (arguments.fill index content) := by
  have hslots : arguments.slots.set index (slot.fill content) =
      arguments.slots.modify index (Slot.fill content) := by
    rw [List.modify_eq_set_getElem?, h]
    rfl
  show EStateM.Result.ok () { arguments with slots := arguments.slots.set index _ } = _
  rw [hslots]
  rfl

theorem takeValue_eq (h : arguments.slots[index]? = some slot) :
    takeValue index arguments =
      match slot with
      | .val (some value) => .ok value (arguments.fill index none)
      | .val none => .error (.argument index .alreadyTaken) arguments
      | .ref _ | .out _ => .error (.argument index .wrongWay) arguments := by
  refine (Action.bind_of_ok (slotAt_of_some h)).trans ?_
  rcases slot with (_ | value) | value | value
  · rfl
  · exact Action.bind_of_ok (replace_of_some h none)
  · rfl
  · rfl

/-- A value of another type is taken out and put back. -/
theorem take_eq (h : arguments.slots[index]? = some slot) (type : ValueType) :
    take type index arguments =
      match slot with
      | .val (some value) =>
          if htype : value.type = type then .ok ⟨value, htype⟩ (arguments.fill index none)
          else .error (.argument index (.wrongType type)) arguments
      | .val none => .error (.argument index .alreadyTaken) arguments
      | .ref _ | .out _ => .error (.argument index .wrongWay) arguments := by
  have htaken := takeValue_eq h
  rcases slot with (_ | value) | value | value
  · exact Action.bind_of_error htaken
  · refine (Action.bind_of_ok htaken).trans ?_
    by_cases htype : value.type = type
    · simp only [htype, dite_true]
      rfl
    · simp only [htype, dite_false]
      have hback := replace_of_some (fill_same h none) (some value)
      rw [← show arguments.content index = some value from content_of_some h,
        fill_fill_content, content_of_some h] at hback
      exact Action.bind_of_ok hback
  · exact Action.bind_of_error htaken
  · exact Action.bind_of_error htaken

theorem get_eq (h : arguments.slots[index]? = some slot) (type : ValueType) :
    get type index arguments =
      match slot.content with
      | some value =>
          if htype : value.type = type then .ok ⟨value, htype⟩ arguments
          else .error (.argument index (.wrongType type)) arguments
      | none => .error (.argument index slot.way.absence) arguments := by
  refine (Action.bind_of_ok (slotAt_of_some h)).trans ?_
  rw [Slot.current_eq]
  cases slot.content with
  | none => rfl
  | some value =>
      show cast index type value arguments = _
      unfold cast
      by_cases htype : value.type = type
      · simp only [htype, dite_true]
        rfl
      · simp only [htype, dite_false]
        rfl

theorem update_eq (h : arguments.slots[index]? = some slot) (type : ValueType)
    (change : Value.OfType type → Value.OfType type) :
    update type index change arguments =
      match slot.content with
      | some value =>
          if htype : value.type = type then
            .ok () (arguments.fill index (some (change ⟨value, htype⟩)))
          else .error (.argument index (.wrongType type)) arguments
      | none => .error (.argument index slot.way.absence) arguments := by
  have hget := get_eq h type
  refine (Action.bind_of_ok (slotAt_of_some h)).trans ?_
  cases hcontent : slot.content with
  | none =>
      rw [hcontent] at hget
      exact Action.bind_of_error hget
  | some value =>
      rw [hcontent] at hget
      by_cases htype : value.type = type
      · simp only [htype, dite_true] at hget ⊢
        refine (Action.bind_of_ok hget).trans ?_
        rw [Slot.hold_eq]
        exact replace_of_some h _
      · simp only [htype, dite_false] at hget ⊢
        exact Action.bind_of_error hget

theorem set_eq (h : arguments.slots[index]? = some slot) (value : Value) :
    set index value arguments =
      match slot with
      | .val _ => .error (.argument index .wrongWay) arguments
      | .ref _ | .out _ => .ok () (arguments.fill index (some value)) := by
  refine (Action.bind_of_ok (slotAt_of_some h)).trans ?_
  rcases slot with held | held | held
  · rfl
  · exact replace_of_some h (some value)
  · exact replace_of_some h (some value)

end Slots

namespace Step

/-- `step.Leaves before after` says that the step changed what its slot holds, and nothing else. -/
structure Leaves (step : Step) (before after : Arguments) : Prop where
  generics_eq : after.generics = before.generics
  way_eq : ∀ index, after.way index = before.way index
  content_eq : after.content step.index = step.access.effect (before.content step.index)
  others_eq : ∀ index, index ≠ step.index → after.slots[index]? = before.slots[index]?

/-- `step.Ends arguments result` says that the step fails with its first fault and changes nothing,
or that it has no fault, answers and leaves its effect behind. -/
inductive Ends (step : Step) (arguments : Arguments) :
    EStateM.Result MethodError Arguments Answer → Prop where
  | refused (fault) : (step.faults arguments).head? = some fault →
      Ends step arguments (.error (.argument step.index fault) arguments)
  | answered (answer after) : step.faults arguments = [] →
      step.access.answer (arguments.way step.index) (arguments.content step.index) = some answer →
      step.Leaves arguments after →
      Ends step arguments (.ok answer after)

section Ends

variable {arguments : Arguments} {index : Nat} {slot : Slot} {access : Access}

/-- An access that only looks leaves everything as it was. -/
theorem leaves_refl (h : access.effect (arguments.content index) = arguments.content index) :
    Leaves ⟨index, access⟩ arguments arguments :=
  ⟨rfl, fun _ => rfl, h.symm, fun _ _ => rfl⟩

theorem leaves_fill (h : arguments.slots[index]? = some slot) {content : Option Value}
    (heffect : access.effect slot.content = content)
    (hcontent : (slot.fill content).content = content) :
    Leaves ⟨index, access⟩ arguments (arguments.fill index content) where
  generics_eq := rfl
  way_eq := way_fill content
  content_eq := by
    rw [content_of_some (fill_same h content), content_of_some h, hcontent, heffect]
  others_eq := fun _ hother => fill_other hother content

theorem perform_of_none (h : arguments.slots[index]? = none) (haccess : access ≠ .askWay) :
    perform ⟨index, access⟩ arguments = .error (.argument index .outOfRange) arguments := by
  have hslot := slotAt_of_none h
  cases access with
  | take type => exact Action.bind_of_error (Action.bind_of_error (Action.bind_of_error hslot))
  | takeValue => exact Action.bind_of_error (Action.bind_of_error hslot)
  | get type => exact Action.bind_of_error (Action.bind_of_error hslot)
  | update type change => exact Action.bind_of_error (Action.bind_of_error hslot)
  | set value => exact Action.bind_of_error (Action.bind_of_error hslot)
  | askWay => exact absurd rfl haccess

/-- Without a parameter at its index, only the question for its way is answered. -/
theorem ends_of_none (h : arguments.slots[index]? = none) :
    Ends ⟨index, access⟩ arguments (perform ⟨index, access⟩ arguments) := by
  have hway : arguments.way index = none := by
    rw [way, h]
    rfl
  by_cases haccess : access = .askWay
  · subst haccess
    exact .answered _ _ rfl rfl (leaves_refl rfl)
  · rw [perform_of_none h haccess]
    refine .refused .outOfRange ?_
    rw [faults, hway]
    cases access <;> first | rfl | exact absurd rfl haccess

section OfSome

variable {answer : Answer} {content : Option Value}

theorem ends_of_error (h : arguments.slots[index]? = some slot) {fault : ArgumentFault}
    (hperform : perform ⟨index, access⟩ arguments = .error (.argument index fault) arguments)
    (hfault : (access.faults (some slot.way) slot.content).head? = some fault) :
    Ends ⟨index, access⟩ arguments (perform ⟨index, access⟩ arguments) := by
  rw [hperform]
  refine .refused fault ?_
  rw [faults, way_of_some h, content_of_some h, hfault]

theorem ends_of_ok (h : arguments.slots[index]? = some slot) {after : Arguments}
    (hperform : perform ⟨index, access⟩ arguments = .ok answer after)
    (hfaults : access.faults (some slot.way) slot.content = [])
    (hanswer : access.answer (some slot.way) slot.content = some answer)
    (hleaves : Leaves ⟨index, access⟩ arguments after) :
    Ends ⟨index, access⟩ arguments (perform ⟨index, access⟩ arguments) := by
  rw [hperform]
  refine .answered answer after ?_ ?_ hleaves
  · rw [faults, way_of_some h, content_of_some h, hfaults]
  · rw [way_of_some h, content_of_some h, hanswer]

end OfSome

/-- The way of a parameter and what its slot holds decide what comes of an access. -/
theorem ends_of_some (h : arguments.slots[index]? = some slot) :
    Ends ⟨index, access⟩ arguments (perform ⟨index, access⟩ arguments) := by
  cases access with
  | take type =>
      have htake := take_eq h type
      rcases slot with (_ | value) | value | value
      · exact ends_of_error h (Action.bind_of_error htake) rfl
      · by_cases htype : value.type = type
        · simp only [htype, dite_true] at htake
          exact ends_of_ok h (Action.bind_of_ok htake)
            (Access.faults_of_type_eq rfl rfl htype) rfl (leaves_fill h rfl rfl)
        · simp only [htype, dite_false] at htake
          refine ends_of_error h (Action.bind_of_error htake) ?_
          exact congrArg List.head? (Access.faults_of_type_ne rfl rfl htype)
      · exact ends_of_error h (Action.bind_of_error htake) rfl
      · exact ends_of_error h (Action.bind_of_error htake) rfl
  | takeValue =>
      have htake := takeValue_eq h
      rcases slot with (_ | value) | value | value
      · exact ends_of_error h (Action.bind_of_error htake) rfl
      · exact ends_of_ok h (Action.bind_of_ok htake) rfl rfl (leaves_fill h rfl rfl)
      · exact ends_of_error h (Action.bind_of_error htake) rfl
      · exact ends_of_error h (Action.bind_of_error htake) rfl
  | get type =>
      have hget := get_eq h type
      cases hcontent : slot.content with
      | none =>
          rw [hcontent] at hget
          exact ends_of_error h (Action.bind_of_error hget) (by rw [hcontent]; rfl)
      | some value =>
          rw [hcontent] at hget
          by_cases htype : value.type = type
          · simp only [htype, dite_true] at hget
            refine ends_of_ok h (Action.bind_of_ok hget) ?_ ?_ (leaves_refl rfl)
            · rw [hcontent]
              exact Access.faults_of_type_eq rfl rfl htype
            · rw [hcontent]
              rfl
          · simp only [htype, dite_false] at hget
            refine ends_of_error h (Action.bind_of_error hget) ?_
            rw [hcontent, Access.faults_of_type_ne rfl rfl htype]
            rfl
  | update type change =>
      have hupdate := update_eq h type change
      cases hcontent : slot.content with
      | none =>
          rw [hcontent] at hupdate
          exact ends_of_error h (Action.bind_of_error hupdate) (by rw [hcontent]; rfl)
      | some value =>
          rw [hcontent] at hupdate
          by_cases htype : value.type = type
          · simp only [htype, dite_true] at hupdate
            have heffect : (Access.update type change).effect slot.content =
                some (change ⟨value, htype⟩).val := by
              simp [hcontent, Access.effect, htype]
            refine ends_of_ok h (Action.bind_of_ok hupdate) ?_ rfl
              (leaves_fill h heffect slot.content_fill_some)
            rw [hcontent]
            exact Access.faults_of_type_eq rfl rfl htype
          · simp only [htype, dite_false] at hupdate
            refine ends_of_error h (Action.bind_of_error hupdate) ?_
            rw [hcontent, Access.faults_of_type_ne rfl rfl htype]
            rfl
  | set value =>
      have hset := set_eq h value
      rcases slot with held | held | held
      · exact ends_of_error h (Action.bind_of_error hset) rfl
      · exact ends_of_ok h (Action.bind_of_ok hset) rfl rfl (leaves_fill h rfl rfl)
      · exact ends_of_ok h (Action.bind_of_ok hset) rfl rfl (leaves_fill h rfl rfl)
  | askWay =>
      have hanswer : Access.askWay.answer (some slot.way) slot.content =
          some (.way (arguments.way index)) := by
        rw [way_of_some h]
        rfl
      exact ends_of_ok h rfl rfl hanswer (leaves_refl rfl)

/-- A step with a fault fails with the first one and changes nothing, and any other step succeeds
and changes nothing but what its own slot holds. -/
theorem ends_perform (step : Step) (arguments : Arguments) :
    step.Ends arguments (step.perform arguments) := by
  cases h : arguments.slots[step.index]? with
  | none => exact ends_of_none h
  | some slot => exact ends_of_some h

end Ends

end Step

end Arguments

end Switchboard
