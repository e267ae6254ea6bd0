import Switchboard.Invoker.Basic
import Switchboard.Proofs.Invoker.Compile

/-!
# What a call makes of the outcome of its method

`directFaults` lists what can be wrong with what a direct method returned and left in its arguments,
in the order of priority, and `Invoker.Responds` says which response is made of it. The main result,
`Invoker.responds_iff`, says that this is the response of a compiled invoker.
-/

namespace Switchboard

variable {host : Host}

namespace Slot

/-- Whether the slot is an output without a value. -/
def isUnassigned : Slot → Bool
  | out none => true
  | _ => false

/-- The value that the slot gives the response. -/
def response? : Slot → Option Value
  | val _ => none
  | ref value => some value
  | out value => value

end Slot

namespace Arguments

/-- A slot that is not an output without a value adds what it holds, if it is for the response. -/
theorem responseFrom_cons {slot : Slot} (h : slot.isUnassigned = false) (index : Nat)
    (slots : List Slot) :
    responseFrom index (slot :: slots) =
      (responseFrom (index + 1) slots).map (slot.response?.toList ++ ·) := by
  rcases slot with value | value | (_ | value)
  · rw [responseFrom]
    cases responseFrom (index + 1) slots <;> rfl
  · rw [responseFrom]
    cases responseFrom (index + 1) slots <;> rfl
  · exact nomatch h
  · rw [responseFrom]
    cases responseFrom (index + 1) slots <;> rfl

/-- The values for the response are all there unless an output was left without a value, and then
the first such output is named. -/
theorem responseFrom_eq (index : Nat) (slots : List Slot) :
    responseFrom index slots =
      match slots.findIdx? Slot.isUnassigned with
      | some position => .error (index + position)
      | none => .ok (slots.filterMap Slot.response?) := by
  induction slots generalizing index with
  | nil => rfl
  | cons slot slots ih =>
      cases hslot : slot.isUnassigned with
      | true =>
          have hout : slot = .out none := by
            rcases slot with _ | _ | (_ | _) <;> first | rfl | exact nomatch hslot
          rw [List.findIdx?_cons, hslot, hout]
          rfl
      | false =>
          rw [responseFrom_cons hslot, ih, List.findIdx?_cons, hslot]
          cases slots.findIdx? Slot.isUnassigned with
          | none => cases hvalue : slot.response? <;> simp [Except.map, hvalue]
          | some position => simp [Except.map, Nat.add_assoc, Nat.add_comm 1]

end Arguments

/-- What is wrong with the outcome of a direct method, in the order of priority: an operation in
progress or a value that is not declared, the first output that was left without a value, and a
missing value. -/
def directFaults (returnType : TypeExpr) (returned : Returned host) (slots : List Slot) :
    List InvokeError :=
  List.flatten [
    match returned with
      | .pending _ => [.returnShape returnType]
      | .value _ => if returnType = .void then [.returnShape returnType] else []
      | .void => [],
    (slots.findIdx? Slot.isUnassigned).toList.map .outNotAssigned,
    match returned with
      | .void => if returnType = .void then [] else [.returnShape returnType]
      | _ => []]

/-- The fields of the response to a direct call: what the slots hold for it, and then the value that
the method returned. -/
def Signature.responseFields (signature : Signature) (returned : Returned host)
    (slots : List Slot) : List Field :=
  List.zipWith Field.mk (responseCodecs signature.parameters) (slots.filterMap Slot.response?) ++
    match signature.completion.result, returned with
      | some result, .value value => [⟨result.codec, value⟩]
      | _, _ => []

/-- `invoker.Responds returned slots response` says that `response` is made of what the handler
returned and left in the slots. -/
inductive Invoker.Responds (invoker : Invoker host) (returned : Returned host)
    (slots : List Slot) : Response host → Prop where
  | faulty (error) : invoker.remoting = .direct →
      (directFaults invoker.signature.returnType returned slots).head? = some error →
      Responds invoker returned slots (.ready (.error error))
  | encoded : invoker.remoting = .direct →
      directFaults invoker.signature.returnType returned slots = [] →
      Responds invoker returned slots
        (.ready ((Field.encodeAll (invoker.signature.responseFields returned slots)).mapError
          .codec))
  | awaited (result operation) : invoker.signature.completion = .async result →
      returned = .pending operation →
      Responds invoker returned slots (.pending invoker.name result operation)
  | notPending (result) : invoker.signature.completion = .async result →
      (∀ operation, returned ≠ .pending operation) →
      Responds invoker returned slots
        (.ready (.error (.returnShape invoker.signature.returnType)))

/-- A direct completion expects a value exactly when the return type is not `void`, and then a value
of the return type. -/
theorem Signature.Describes.direct_result {signature : Signature} {method : Method host}
    {generics : List TypeExpr} {catalog : Catalog} (h : signature.Describes method generics catalog)
    {layout : ResponseLayout} (hdirect : signature.completion = .direct layout) :
    layout.result.map ResultCodec.type =
      if signature.returnType = .void then none else some signature.returnType := by
  have hremoting : method.remoting = .direct := by
    rw [← h.remoting_eq, hdirect]
    rfl
  have hresult := h.result_type
  rw [hdirect, hremoting] at hresult
  rw [show layout.result = (Completion.direct layout).result from rfl, hresult]
  cases signature.returnType <;> simp [Remoting.received]

/-- The response that a call ends with, however it ends. -/
def Response.of (result : Except InvokeError (Response host)) : Response host :=
  match result with
  | .ok response => response
  | .error error => .ready (.error error)

namespace Invoker

variable {invoker : Invoker host} {method : Method host} {generics : List TypeExpr}
  {catalog : Catalog}

/-- A direct call ends with the first fault of its outcome, or else with the bytes of the fields. -/
theorem respond_direct (hsignature : invoker.signature.Describes method generics catalog)
    {layout : ResponseLayout} (hdirect : invoker.signature.completion = .direct layout)
    (returned : Returned host) (arguments : Arguments) :
    Response.of (invoker.respond returned arguments) = .ready
      (match (directFaults invoker.signature.returnType returned arguments.slots).head? with
        | some error => .error error
        | none => (Field.encodeAll
            (invoker.signature.responseFields returned arguments.slots)).mapError .codec) := by
  have hparameters := hsignature.layout_parameters layout hdirect
  have hresult := hsignature.direct_result hdirect
  have hslots := Arguments.responseFrom_eq 0 arguments.slots
  -- The layout expects a result exactly when the return type is not `void`, which decides whether
  -- a value or the lack of one is a fault.
  unfold respond Arguments.response directFaults Signature.responseFields
  simp only [hdirect, hslots, Completion.result]
  cases hexpected : layout.result with
  | none =>
      have hvoid : invoker.signature.returnType = .void := by
        by_contra hvalue
        simp [hexpected, hvalue] at hresult
      cases returned <;> cases hfind : arguments.slots.findIdx? Slot.isUnassigned <;>
        simp [directResult, ResponseLayout.encode, ResponseLayout.fields, Response.of, hexpected,
          hvoid, hparameters, Except.mapError, bind, Except.bind, pure, Except.pure]
  | some expected =>
      have hvalue : invoker.signature.returnType ≠ .void ∧
          expected.type = invoker.signature.returnType := by
        by_cases hvoid : invoker.signature.returnType = .void
        · simp [hexpected, hvoid] at hresult
        · exact ⟨hvoid, by simpa [hexpected, hvoid] using hresult⟩
      cases returned <;> cases hfind : arguments.slots.findIdx? Slot.isUnassigned <;>
        simp [directResult, ResponseLayout.encode, ResponseLayout.fields, Response.of, hexpected,
          hvalue, hparameters, Except.mapError, bind, Except.bind, pure, Except.pure]

theorem exists_layout_of_direct (h : invoker.remoting = .direct) :
    ∃ layout, invoker.signature.completion = .direct layout := by
  unfold remoting at h
  cases hcompletion : invoker.signature.completion with
  | direct layout => exact ⟨layout, rfl⟩
  | async result =>
      rw [hcompletion] at h
      cases result <;> exact nomatch h

/-- `Responds` says exactly what the response is. -/
theorem responds_iff (hsignature : invoker.signature.Describes method generics catalog)
    (returned : Returned host) (arguments : Arguments) (response : Response host) :
    invoker.Responds returned arguments.slots response ↔
      Response.of (invoker.respond returned arguments) = response := by
  constructor
  · intro h
    cases h with
    | faulty error hremoting hfault =>
        obtain ⟨layout, hdirect⟩ := exists_layout_of_direct hremoting
        rw [respond_direct hsignature hdirect, hfault]
    | encoded hremoting hfault =>
        obtain ⟨layout, hdirect⟩ := exists_layout_of_direct hremoting
        rw [respond_direct hsignature hdirect, hfault]
        rfl
    | awaited result operation hasync hreturned => simp [respond, hasync, hreturned, Response.of]
    | notPending result hasync hreturned =>
        cases returned with
        | pending operation => exact absurd rfl (hreturned operation)
        | _ => simp [respond, hasync, Response.of]
  · intro h
    rw [← h]
    cases hcompletion : invoker.signature.completion with
    | direct layout =>
        have hremoting : invoker.remoting = .direct := by
          unfold remoting
          rw [hcompletion]
          rfl
        rw [respond_direct hsignature hcompletion]
        cases hfault :
            (directFaults invoker.signature.returnType returned arguments.slots).head? with
        | some error => exact .faulty error hremoting hfault
        | none => exact .encoded hremoting (List.head?_eq_none_iff.1 hfault)
    | async result =>
        cases returned with
        | pending operation =>
            simp only [respond, hcompletion, Response.of]
            exact .awaited result operation hcompletion rfl
        | _ =>
            simp only [respond, hcompletion, Response.of]
            exact .notPending result hcompletion nofun

end Invoker

end Switchboard
