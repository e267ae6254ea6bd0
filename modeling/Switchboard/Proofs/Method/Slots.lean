import Switchboard.Proofs.Invoker.Outcome
import Switchboard.Proofs.Invoker.Request
import Switchboard.Proofs.Method.Access

/-!
# What a handler can do to the arguments of its call

A `Session` is what a handler has done with the slots of its call, one step after the other and
going on after those that fail. `Session.Kept` says what holds of the slots at any time: which of
them hold a value, what it is, and what becomes of the response. The main result,
`Invoker.session_kept`, says that this is so for the slots of every decoded request, after any
steps.
-/

namespace Switchboard

namespace Arguments

namespace Access

/-- Whether the access takes the value away. -/
def isTake : Access → Bool
  | take _ | takeValue => true
  | get _ | update _ _ | set _ | askWay => false

/-- Whether the access assigns a value. -/
def isSet : Access → Bool
  | set _ => true
  | take _ | takeValue | get _ | update _ _ | askWay => false

end Access

/-- A step of a handler together with how it came out. -/
structure Record where
  step : Step
  outcome : Except MethodError Answer

namespace Record

/-- Whether the step succeeded at the slot of the parameter at `index`. -/
def succeeds (record : Record) (index : Nat) : Bool :=
  record.step.index = index && record.outcome.isOk

/-- Whether the step took the value out of the slot of the parameter at `index`. -/
def takes (record : Record) (index : Nat) : Bool :=
  record.succeeds index && record.step.access.isTake

/-- Whether the step assigned the parameter at `index`. -/
def assigns (record : Record) (index : Nat) : Bool :=
  record.succeeds index && record.step.access.isSet

end Record

/-- What a handler has done so far, and the arguments as it has left them. -/
structure Session where
  records : List Record
  arguments : Arguments

namespace Session

/-- One more step. -/
def next (session : Session) (step : Step) : Session :=
  match step.perform session.arguments with
  | .ok answer after => ⟨session.records ++ [⟨step, .ok answer⟩], after⟩
  | .error error after => ⟨session.records ++ [⟨step, .error error⟩], after⟩

/-- The session of a handler that does these steps. -/
def run (arguments : Arguments) (steps : List Step) : Session := steps.foldl next ⟨[], arguments⟩

/-- What a slot that held `content` at first holds after the steps that succeeded at it. -/
def held (index : Nat) (content : Option Value) (records : List Record) : Option Value :=
  records.foldl (fun content record =>
    if record.succeeds index then record.step.access.effect content else content) content

/-- How often the value of a parameter was taken. -/
def takes (index : Nat) (records : List Record) : Nat :=
  records.countP fun record => record.takes index

/-- Whether a parameter was assigned. -/
def Assigned (index : Nat) (records : List Record) : Prop :=
  ∃ record ∈ records, record.assigns index = true

end Session

/-- What the parameters of the given ways give the response, where `contents` says what each slot
holds. -/
def responseContents (ways : List Way) (contents : Nat → Option Value) : List (Option Value) :=
  (ways.zipIdx.filter fun entry => entry.1.isResponse).map fun entry => contents entry.2

/-- `session.Kept ways start` says what is true of a session with parameters of these ways, whose
slots held what `start` says at first. -/
structure Session.Kept (session : Session) (ways : List Way) (start : Nat → Option Value) :
    Prop where
  /-- There is one slot for each parameter, of its way. -/
  ways_eq : session.arguments.slots.map Slot.way = ways
  /-- A slot holds what the steps that succeeded at it have made of what it held at first. -/
  content_eq : ∀ index,
    session.arguments.content index = Session.held index (start index) session.records
  /-- An input either holds its value or was taken once. -/
  val_once : ∀ index, ways[index]? = some .val →
    Session.takes index session.records = if (session.arguments.content index).isSome then 0 else 1
  /-- One that was taken can only be asked for its way from then on. -/
  taken : ∀ index, Session.takes index session.records ≠ 0 → ∀ access, access ≠ .askWay →
    Step.perform ⟨index, access⟩ session.arguments =
      .error (.argument index (if access.isSet then .wrongWay else .alreadyTaken))
        session.arguments
  /-- The value of no other parameter is ever taken. -/
  takes_val : ∀ index, ways[index]? ≠ some .val → Session.takes index session.records = 0
  /-- What is written back after the call is always there. -/
  ref_holds : ∀ index, ways[index]? = some .ref → (session.arguments.content index).isSome
  /-- An output holds a value from its first assignment on. -/
  out_holds : ∀ index, ways[index]? = some .out →
    ((session.arguments.content index).isSome ↔ Session.Assigned index session.records)
  /-- The next step fails with its first fault and changes nothing, or it changes nothing but what
  its own slot holds. -/
  next_ends : ∀ step : Step, step.Ends session.arguments (step.perform session.arguments)
  /-- The response has what the slots hold, if every output was assigned. -/
  response_ok : ∀ values, session.arguments.response = .ok values ↔
    (∀ index, ways[index]? = some .out → Session.Assigned index session.records) ∧
      values.map some = responseContents ways fun index =>
        Session.held index (start index) session.records
  /-- Otherwise the first output that was not is named. -/
  response_error : ∀ index, session.arguments.response = .error index ↔
    (ways[index]? = some .out ∧ ¬ Session.Assigned index session.records) ∧
      ∀ lower < index, ways[lower]? = some .out → Session.Assigned lower session.records

/-- What is true of one slot all along: of the way of its parameter, what it holds, how often its
value was taken, and whether it was assigned. -/
structure Law (way : Option Way) (content : Option Value) (takes : Nat) (assigned : Prop) :
    Prop where
  val_once : way = some .val → takes = if content.isSome then 0 else 1
  takes_val : way ≠ some .val → takes = 0
  ref_holds : way = some .ref → content.isSome
  out_holds : way = some .out → (content.isSome ↔ assigned)

/-- Which value a slot holds does not matter to its law. -/
theorem Law.replace {way : Option Way} {content other : Option Value} {takes : Nat}
    {assigned : Prop} (h : Law way content takes assigned)
    (hother : other.isSome = content.isSome) : Law way other takes assigned where
  val_once hway := by rw [hother, h.val_once hway]
  takes_val := h.takes_val
  ref_holds hway := hother.trans (h.ref_holds hway)
  out_holds hway := by rw [hother, h.out_holds hway]

/-- An access without a fault keeps the law of its slot. -/
theorem Law.access {way : Option Way} {content : Option Value} {takes : Nat} {assigned : Prop}
    (h : Law way content takes assigned) {access : Access}
    (hfaults : access.faults way content = []) :
    Law way (access.effect content) (takes + if access.isTake then 1 else 0)
      (assigned ∨ access.isSet = true) := by
  cases way with
  | none =>
      cases access with
      | askWay => simpa [Access.effect, Access.isTake, Access.isSet] using h
      | _ => cases hfaults
  | some way =>
      obtain ⟨hpermitted, hreads⟩ := Access.permitted_of_faultless hfaults
      have htaken : access.permitted way = decide (way = .val) → content.isSome = true →
          Law (some way) none (takes + 1) assigned := by
        intro hval hsome
        obtain rfl : way = .val := by simpa [hval] using hpermitted
        have hnone := h.val_once rfl
        rw [if_pos hsome] at hnone
        exact ⟨fun _ => by simp [hnone], fun hne => absurd rfl hne, by simp, by simp⟩
      cases access with
      | take type =>
          simpa [Access.effect, Access.isTake, Access.isSet] using htaken rfl (hreads rfl)
      | takeValue =>
          simpa [Access.effect, Access.isTake, Access.isSet] using htaken rfl (hreads rfl)
      | get type => simpa [Access.effect, Access.isTake, Access.isSet] using h
      | update type change =>
          have hlaw : Law (some way) ((Access.update type change).effect content) takes assigned :=
            h.replace Option.isSome_map
          simpa [Access.isTake, Access.isSet] using hlaw
      | set value =>
          refine ⟨?_, h.takes_val, fun _ => rfl, fun _ => ?_⟩
          · rintro ⟨⟩
            cases hpermitted
          · simp [Access.effect, Access.isSet]
      | askWay => simpa [Access.effect, Access.isTake, Access.isSet] using h

namespace Session

section Records

variable (records : List Record) (record : Record) (index : Nat)

theorem held_append (content : Option Value) :
    held index content (records ++ [record]) =
      if record.succeeds index then record.step.access.effect (held index content records)
      else held index content records := by
  simp [held, List.foldl_append]

theorem takes_append :
    takes index (records ++ [record]) =
      takes index records + if record.takes index then 1 else 0 := by
  simp [takes, List.countP_append, List.countP_singleton]

theorem assigned_append :
    Assigned index (records ++ [record]) ↔
      Assigned index records ∨ record.assigns index = true := by
  simp [Assigned, or_and_right, exists_or]

end Records

/-- `session.Tracks ways start` says that every slot of a session has kept its way and its law, and
that it holds what the steps that succeeded at it have made of what `start` says. -/
structure Tracks (session : Session) (ways : Nat → Option Way) (start : Nat → Option Value) :
    Prop where
  way_eq : ∀ index, session.arguments.way index = ways index
  content_eq : ∀ index, session.arguments.content index = held index (start index) session.records
  law : ∀ index, Law (ways index) (session.arguments.content index)
    (takes index session.records) (Assigned index session.records)

section Append

variable {ways : Nat → Option Way} {start : Nat → Option Value} {records : List Record}
  {before after : Arguments} {record : Record} {index : Nat}

/-- A record that is not of a success at a slot does not count for it. -/
theorem law_append_of_other {way : Option Way}
    (h : Law way (before.content index) (takes index records) (Assigned index records))
    (hother : record.succeeds index = false)
    (hcontent : after.content index = before.content index) :
    Law way (after.content index) (takes index (records ++ [record]))
      (Assigned index (records ++ [record])) := by
  rw [takes_append, assigned_append, hcontent]
  simpa [Record.takes, Record.assigns, hother] using h

/-- A success counts for the slot that it is about. -/
theorem law_append_of_success {way : Option Way} {step : Step} {answer : Answer}
    (h : Law way (before.content step.index) (takes step.index records)
      (Assigned step.index records))
    (hfaults : step.access.faults way (before.content step.index) = [])
    (hcontent : after.content step.index = step.access.effect (before.content step.index)) :
    Law way (after.content step.index)
      (takes step.index (records ++ [⟨step, .ok answer⟩]))
      (Assigned step.index (records ++ [⟨step, .ok answer⟩])) := by
  rw [takes_append, assigned_append, hcontent]
  simpa [Record.takes, Record.assigns, Record.succeeds, Except.isOk, Except.toBool] using
    h.access hfaults

/-- One more step keeps the slots in line with what was done. -/
theorem Tracks.next {session : Session} (h : session.Tracks ways start) (step : Step) :
    (session.next step).Tracks ways start := by
  have hends := step.ends_perform session.arguments
  unfold Session.next
  cases hresult : step.perform session.arguments with
  | error error after =>
      rw [hresult] at hends
      have hother : ∀ index, (Record.mk step (.error error)).succeeds index = false := by
        intro index
        simp [Record.succeeds, Except.isOk, Except.toBool]
      cases hends with
      | refused fault hfault =>
          refine ⟨h.way_eq, fun index => ?_, fun index => ?_⟩
          · rw [held_append, hother, h.content_eq]
            rfl
          · exact law_append_of_other (h.law index) (hother index) rfl
  | ok answer after =>
      rw [hresult] at hends
      cases hends with
      | answered _ _ hfaults _ hleaves =>
          have hother : ∀ index, index ≠ step.index →
              (Record.mk step (.ok answer)).succeeds index = false := by
            intro index hne
            simp [Record.succeeds, Ne.symm hne]
          have hsame : ∀ index, index ≠ step.index →
              after.content index = session.arguments.content index := by
            intro index hne
            rw [content, content, hleaves.others_eq index hne]
          refine ⟨fun index => (hleaves.way_eq index).trans (h.way_eq index),
            fun index => ?_, fun index => ?_⟩
          · rw [held_append]
            by_cases hindex : index = step.index
            · subst hindex
              simp [Record.succeeds, Except.isOk, Except.toBool, hleaves.content_eq, h.content_eq]
            · rw [hother index hindex, hsame index hindex, h.content_eq]
              rfl
          · by_cases hindex : index = step.index
            · subst hindex
              rw [Step.faults, h.way_eq] at hfaults
              exact law_append_of_success (h.law _) hfaults hleaves.content_eq
            · exact law_append_of_other (h.law index) (hother index hindex) (hsame index hindex)

theorem Tracks.run {arguments : Arguments} (h : Tracks ⟨[], arguments⟩ ways start)
    (steps : List Step) : (run arguments steps).Tracks ways start := by
  induction steps using List.reverseRecOn with
  | nil => exact h
  | append_singleton steps step ih =>
      rw [Session.run, List.foldl_append]
      exact ih.next step

end Append

end Session

section Response

variable {arguments : Arguments} {index : Nat}

/-- The outputs without a value are told by the ways and by what the slots hold. -/
theorem exists_isUnassigned_iff :
    (∃ slot, arguments.slots[index]? = some slot ∧ slot.isUnassigned = true) ↔
      arguments.way index = some .out ∧ (arguments.content index).isSome = false := by
  cases hslot : arguments.slots[index]? with
  | none => simp [way, hslot]
  | some slot =>
      rw [way_of_some hslot, content_of_some hslot]
      rcases slot with value | value | (_ | value) <;>
        simp [Slot.isUnassigned, Slot.way, Slot.content]

theorem response_eq :
    arguments.response =
      match arguments.slots.findIdx? Slot.isUnassigned with
      | some position => .error position
      | none => .ok (arguments.slots.filterMap Slot.response?) := by
  rw [response, responseFrom_eq]
  cases arguments.slots.findIdx? Slot.isUnassigned with
  | none => rfl
  | some position => exact congrArg Except.error (Nat.zero_add position)

theorem response_eq_error_iff :
    arguments.response = .error index ↔
      (arguments.way index = some .out ∧ (arguments.content index).isSome = false) ∧
        ∀ lower < index, arguments.way lower = some .out →
          (arguments.content lower).isSome = true := by
  have hfind : arguments.response = .error index ↔
      arguments.slots.findIdx? Slot.isUnassigned = some index := by
    rw [response_eq]
    cases arguments.slots.findIdx? Slot.isUnassigned <;> simp
  rw [hfind, List.findIdx?_eq_some_iff_getElem]
  constructor
  · rintro ⟨hindex, hslot, hlower⟩
    refine ⟨exists_isUnassigned_iff.1 ⟨_, List.getElem?_eq_getElem hindex, hslot⟩, ?_⟩
    intro lower hlt hway
    by_contra hempty
    obtain ⟨slot, hsome, hunassigned⟩ := exists_isUnassigned_iff.2 ⟨hway, by simpa using hempty⟩
    obtain ⟨_, rfl⟩ := List.getElem?_eq_some_iff.1 hsome
    exact hlower lower hlt hunassigned
  · rintro ⟨hunassigned, hlower⟩
    obtain ⟨slot, hsome, hslot⟩ := exists_isUnassigned_iff.2 hunassigned
    obtain ⟨hindex, rfl⟩ := List.getElem?_eq_some_iff.1 hsome
    refine ⟨hindex, hslot, ?_⟩
    intro lower hlt hother
    obtain ⟨hway, hempty⟩ := exists_isUnassigned_iff.1
      ⟨_, List.getElem?_eq_getElem (Nat.lt_trans hlt hindex), hother⟩
    rw [hlower lower hlt hway] at hempty
    exact nomatch hempty

/-- The contents of the slots for the response are the values that they give it. -/
theorem map_some_filterMap_response {slots : List Slot} {contents : Nat → Option Value}
    (hassigned : ∀ slot ∈ slots, slot.isUnassigned = false) (first : Nat)
    (hcontents : ∀ index slot, slots[index]? = some slot →
      contents (first + index) = slot.content) :
    (slots.filterMap Slot.response?).map some =
      ((((slots.map Slot.way).zipIdx first).filter fun entry => entry.1.isResponse).map
        fun entry => contents entry.2) := by
  induction slots generalizing first with
  | nil => rfl
  | cons slot slots ih =>
      obtain ⟨hslot, hrest⟩ := List.forall_mem_cons.1 hassigned
      have hfirst : contents first = slot.content := hcontents 0 slot rfl
      have htail := ih hrest (first + 1) fun index other hother => by
        rw [Nat.add_assoc, Nat.add_comm 1]
        exact hcontents (index + 1) other hother
      rcases slot with value | value | (_ | value)
      · rw [List.filterMap_cons_none rfl]
        simpa [Slot.way, Way.isResponse] using htail
      · simpa [Slot.response?, Slot.way, Way.isResponse, hfirst, Slot.content] using htail
      · cases hslot
      · simpa [Slot.response?, Slot.way, Way.isResponse, hfirst, Slot.content] using htail

theorem response_eq_ok_iff {values : List Value} :
    arguments.response = .ok values ↔
      (∀ index, arguments.way index = some .out → (arguments.content index).isSome = true) ∧
        values.map some =
          responseContents (arguments.slots.map Slot.way) arguments.content := by
  have hassigned : (∀ slot ∈ arguments.slots, slot.isUnassigned = false) ↔
      ∀ index, arguments.way index = some .out → (arguments.content index).isSome = true := by
    constructor
    · intro h index hway
      by_contra hempty
      obtain ⟨slot, hsome, hunassigned⟩ := exists_isUnassigned_iff.2 ⟨hway, by simpa using hempty⟩
      rw [h slot (List.mem_of_getElem? hsome)] at hunassigned
      exact nomatch hunassigned
    · intro h slot hmem
      obtain ⟨index, hsome⟩ := List.getElem?_of_mem hmem
      by_contra hunassigned
      obtain ⟨hway, hempty⟩ := exists_isUnassigned_iff.1 ⟨slot, hsome, by simpa using hunassigned⟩
      rw [h index hway] at hempty
      exact nomatch hempty
  have hresponse : arguments.response = .ok values ↔
      (∀ slot ∈ arguments.slots, slot.isUnassigned = false) ∧
        arguments.slots.filterMap Slot.response? = values := by
    rw [response_eq, ← List.findIdx?_eq_none_iff]
    cases arguments.slots.findIdx? Slot.isUnassigned <;> simp
  rw [hresponse, hassigned]
  refine and_congr_right fun hall => ?_
  have hvalues := map_some_filterMap_response (hassigned.2 hall) 0 fun index slot hslot => by
    rw [Nat.zero_add]
    exact content_of_some hslot
  rw [responseContents, ← hvalues, List.map_inj_right fun _ _ => Option.some.inj, eq_comm]

end Response

section Taken

variable {arguments : Arguments} {index : Nat} {access : Access}

/-- From a slot whose value was taken there is nothing to have but the way of its parameter. -/
theorem perform_of_taken (hway : arguments.way index = some .val)
    (hcontent : (arguments.content index).isSome = false) (haccess : access ≠ .askWay) :
    Step.perform ⟨index, access⟩ arguments =
      .error (.argument index (if access.isSet then .wrongWay else .alreadyTaken)) arguments := by
  have hnone : arguments.content index = none := by simpa using hcontent
  have hfault : (access.faults (some .val) none).head? =
      some (if access.isSet then .wrongWay else .alreadyTaken) := by
    cases access <;> first | rfl | exact absurd rfl haccess
  have hends := Step.ends_perform ⟨index, access⟩ arguments
  generalize Step.perform ⟨index, access⟩ arguments = result at hends
  cases hends with
  | refused fault hfirst =>
      rw [Step.faults, hway, hnone, hfault] at hfirst
      rw [Option.some.inj hfirst]
  | answered answer after hfaults =>
      rw [Step.faults, hway, hnone] at hfaults
      rw [hfaults] at hfault
      cases hfault

end Taken

theorem Session.Tracks.slots_map_way {session : Session} {ways : List Way}
    {start : Nat → Option Value} (h : session.Tracks (fun index => ways[index]?) start) :
    session.arguments.slots.map Slot.way = ways := by
  apply List.ext_getElem?
  intro index
  rw [List.getElem?_map]
  exact h.way_eq index

/-- The outputs that hold a value are those that were assigned. -/
theorem Session.Tracks.assigned_iff {session : Session} {ways : Nat → Option Way}
    {start : Nat → Option Value} (h : session.Tracks ways start) (index : Nat) :
    (session.arguments.way index = some .out →
        (session.arguments.content index).isSome = true) ↔
      (ways index = some .out → Session.Assigned index session.records) := by
  rw [h.way_eq]
  exact forall_congr' (h.law index).out_holds

/-- What is true of the slots of a session follows from what was done and from the laws of the
slots. -/
theorem Session.Tracks.kept {session : Session} {ways : List Way} {start : Nat → Option Value}
    (h : session.Tracks (fun index => ways[index]?) start) : session.Kept ways start where
  ways_eq := h.slots_map_way
  content_eq := h.content_eq
  val_once index := (h.law index).val_once
  taken index htakes access haccess := by
    have hval : ways[index]? = some .val := by
      by_contra hother
      exact htakes ((h.law index).takes_val hother)
    refine perform_of_taken ((h.way_eq index).trans hval) ?_ haccess
    by_contra hsome
    rw [(h.law index).val_once hval, if_pos (Bool.not_eq_false _ ▸ hsome)] at htakes
    exact htakes rfl
  takes_val index := (h.law index).takes_val
  ref_holds index := (h.law index).ref_holds
  out_holds index := (h.law index).out_holds
  next_ends step := step.ends_perform session.arguments
  response_ok values := by
    rw [response_eq_ok_iff, forall_congr' h.assigned_iff, h.slots_map_way, funext h.content_eq]
  response_error index := by
    have hunassigned : (session.arguments.way index = some .out ∧
          (session.arguments.content index).isSome = false) ↔
        ways[index]? = some .out ∧ ¬ Session.Assigned index session.records := by
      rw [h.way_eq]
      refine and_congr_right fun hout => ?_
      rw [← (h.law index).out_holds hout, Bool.not_eq_true]
    rw [response_eq_error_iff, hunassigned]
    exact and_congr_right fun _ => forall₂_congr fun lower _ => h.assigned_iff lower

end Arguments

namespace Invoker

open Arguments

/-- `Decoded bound slots` says that the slots are those of a request that was just decoded: one for
each parameter, of its way, which holds a value exactly when the parameter is read from the
request. -/
structure Decoded (bound : List BoundParameter) (slots : List Slot) : Prop where
  ways_eq : slots.map Slot.way = bound.map BoundParameter.way
  isSome_eq : ∀ slot ∈ slots, slot.content.isSome = slot.way.isRequest

section Decode

variable {bound : List BoundParameter} {slots : List Slot} {reader after : Reader}
  {buffer : Bytes} {offset : Nat}

theorem Decoded.cons {b : BoundParameter} {slot : Slot} (h : Decoded bound slots)
    (hway : slot.way = b.way) (hsome : slot.content.isSome = slot.way.isRequest) :
    Decoded (b :: bound) (slot :: slots) where
  ways_eq := by rw [List.map_cons, List.map_cons, hway, h.ways_eq]
  isSome_eq := List.forall_mem_cons.2 ⟨hsome, h.isSome_eq⟩

theorem decoded_of_decodeSlots (h : decodeSlots bound reader = .ok slots after) :
    Decoded bound slots := by
  induction bound generalizing slots reader with
  | nil =>
      cases h
      exact ⟨rfl, nofun⟩
  | cons b bound ih =>
      have hcons : ∀ slot next, slot.way = b.way → slot.content.isSome = slot.way.isRequest →
          (decodeSlots bound >>= fun slots => pure (slot :: slots)) next = .ok slots after →
          Decoded (b :: bound) slots := by
        intro slot next hway hsome hslots
        obtain ⟨rest, last, hrest, hpure⟩ := Action.bind_eq_ok_iff.1 hslots
        cases hpure
        exact (ih hrest).cons hway hsome
      cases hway : b.way with
      | val =>
          simp only [decodeSlots, hway] at h
          obtain ⟨value, next, _, hrest⟩ := Action.bind_eq_ok_iff.1 h
          exact hcons (.val (some value)) next hway.symm rfl hrest
      | ref =>
          simp only [decodeSlots, hway] at h
          obtain ⟨value, next, _, hrest⟩ := Action.bind_eq_ok_iff.1 h
          exact hcons (.ref value) next hway.symm rfl hrest
      | out =>
          simp only [decodeSlots, hway] at h
          exact hcons (.out none) reader hway.symm rfl h

theorem decoded_of_requestSlots (h : requestSlots bound buffer offset = .ok slots) :
    Decoded bound slots := by
  cases hreads : bound.any fun b => b.way.isRequest with
  | false =>
      have hout : ∀ b ∈ bound, b.way = .out := by
        intro b hmem
        have hunread := List.any_eq_false.1 hreads b hmem
        cases hway : b.way <;> first | rfl | exact absurd (by rw [hway]; rfl) hunread
      rw [requestSlots_of_unread hreads] at h
      obtain rfl := Except.ok.inj h
      exact decoded_of_decodeSlots (decodeSlots_of_unread hout (.ofBytes buffer))
  | true =>
      rcases Nat.lt_or_ge buffer.length offset with hlt | hle
      · rw [requestSlots_of_lt hreads hlt] at h
        exact nomatch h
      · rw [requestSlots_of_le hreads hle] at h
        cases hdecoded : decodeSlots bound ⟨offset, buffer.drop offset⟩ with
        | error error after =>
            rw [hdecoded] at h
            exact nomatch h
        | ok decoded after =>
            rw [hdecoded] at h
            obtain rfl : decoded = slots := Except.ok.inj h
            exact decoded_of_decodeSlots hdecoded

/-- Slots that were just decoded are in line with a session in which nothing was done yet. -/
theorem Decoded.tracks (h : Decoded bound slots) (generics : List TypeExpr) :
    Session.Tracks ⟨[], ⟨slots, generics⟩⟩ (fun index => (bound.map BoundParameter.way)[index]?)
      (Arguments.content ⟨slots, generics⟩) := by
  have hway : ∀ index, Arguments.way ⟨slots, generics⟩ index =
      (bound.map BoundParameter.way)[index]? := by
    intro index
    rw [← h.ways_eq, List.getElem?_map]
    rfl
  refine ⟨hway, fun _ => rfl, fun index => ?_⟩
  rw [← hway]
  show Law _ _ 0 _
  cases hslot : slots[index]? with
  | none =>
      rw [show Arguments.way ⟨slots, generics⟩ index = none by rw [Arguments.way, hslot]; rfl]
      exact ⟨by simp, fun _ => rfl, by simp, by simp⟩
  | some slot =>
      have hsome := h.isSome_eq slot (List.mem_of_getElem? hslot)
      have hstart : (Arguments.mk slots generics).slots[index]? = some slot := hslot
      rw [way_of_some hstart, content_of_some hstart]
      rcases slot with value | value | value
      · exact ⟨fun _ => (if_pos hsome).symm, fun hother => absurd rfl hother, by simp [Slot.way],
          by simp [Slot.way]⟩
      · exact ⟨by simp [Slot.way], fun _ => rfl, fun _ => hsome, by simp [Slot.way]⟩
      · refine ⟨by simp [Slot.way], fun _ => rfl, by simp [Slot.way], fun _ => ?_⟩
        rw [hsome]
        simp [Slot.way, Way.isRequest, Session.Assigned]

/-- Whatever a handler does with the slots of a decoded request, and whether or not it succeeds,
their ways stay as they are, an input is taken once at most, what is written back is always there,
an output stays assigned, a step that fails changes nothing and names its first fault, and the
response has the last value of each parameter or names the first output that was not assigned. -/
theorem session_kept (h : requestSlots bound buffer offset = .ok slots) (generics : List TypeExpr)
    (steps : List Step) :
    (Session.run ⟨slots, generics⟩ steps).Kept (bound.map BoundParameter.way)
      (Arguments.content ⟨slots, generics⟩) := by
  have hdecoded := decoded_of_requestSlots h
  have htracks := (hdecoded.tracks generics).run steps
  exact htracks.kept

end Decode

/-- One parameter of each way, all of them bytes. -/
def byteParameters : List BoundParameter :=
  [.val, .ref, .out].map fun way => ⟨way, .base "u8", (Codec.word UInt8).erase .u8⟩

/-- A handler that asks for the input as a text first, takes it, tries to take it again, updates the
parameter that is written back and assigns the output. -/
def byteSteps : List Step :=
  [⟨0, .take .string⟩, ⟨0, .take .u8⟩, ⟨0, .takeValue⟩, ⟨1, .update .u8 fun _ => ⟨.u8 5, rfl⟩⟩,
    ⟨2, .set (.u8 3)⟩]

/-- Two of these steps fail, and the response has the two values that the others left behind. -/
theorem session_kept_bytes :
    let slots := [.val (some (.u8 7)), .ref (.u8 9), .out none]
    let session := Session.run ⟨slots, []⟩ byteSteps
    requestSlots byteParameters [7, 9] 0 = .ok slots ∧
      session.Kept [.val, .ref, .out] (Arguments.content ⟨slots, []⟩) ∧
      session.arguments.response = .ok [.u8 5, .u8 3] := by
  intro slots session
  have hslots : requestSlots byteParameters [7, 9] 0 = .ok slots := rfl
  exact ⟨hslots, session_kept hslots [] byteSteps, rfl⟩

end Invoker

end Switchboard
