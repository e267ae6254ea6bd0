import Switchboard.Proofs.Invoker.Acceptance
import Switchboard.Proofs.Invoker.Request
import Switchboard.Proofs.Invoker.Stages
import Switchboard.Proofs.Response.Layout

/-!
# A direct call from the request to the response

`Requests` says which bytes are the request for given values, and which slots the handler is called
with. `Replies` and `Results` say which fields the response has for what the handler leaves in the
slots and returns. The main result, `Service.invoke_round_trip`, says that on a standard registry
every direct call whose values can be encoded passes the values of the request to the handler, and
its own values back in a payload of exactly the announced size.
-/

namespace Switchboard

variable {host : Host}

/-- `Encodes codecOf type value codec bytes` says that `codec` is the codec of `type`, and that it
can encode `value` by itself, as `bytes`. -/
structure Encodes (codecOf : TypeExpr → Except LookupError ValueCodec) (type : TypeExpr)
    (value : Value) (codec : ValueCodec) (bytes : Bytes) : Prop where
  codec_eq : codecOf type = .ok codec
  encoded_eq : codec.encoded value = .ok bytes

/-- `Requests codecOf bindings parameters bytes slots` says that `bytes` are the encodings of the
values for the parameters that are read from the request, one behind the other, and that `slots`
hold these values. The outputs have slots without a value. -/
inductive Requests (codecOf : TypeExpr → Except LookupError ValueCodec)
    (bindings : TypeExpr.Bindings) : List Parameter → Bytes → List Slot → Prop where
  | nil : Requests codecOf bindings [] [] []
  | val (parameter value codec bytes parameters rest slots) : parameter.way = .val →
      Encodes codecOf (parameter.type.substitute bindings) value codec bytes →
      Requests codecOf bindings parameters rest slots →
      Requests codecOf bindings (parameter :: parameters) (bytes ++ rest)
        (.val (some value) :: slots)
  | ref (parameter value codec bytes parameters rest slots) : parameter.way = .ref →
      Encodes codecOf (parameter.type.substitute bindings) value codec bytes →
      Requests codecOf bindings parameters rest slots →
      Requests codecOf bindings (parameter :: parameters) (bytes ++ rest) (.ref value :: slots)
  | out (parameter parameters rest slots) : parameter.way = .out →
      Requests codecOf bindings parameters rest slots →
      Requests codecOf bindings (parameter :: parameters) rest (.out none :: slots)

/-- `Replies codecOf bindings parameters slots fields` says that `slots` hold a value that can be
encoded for each parameter that goes into the response, and that `fields` are these values with
their codecs. -/
inductive Replies (codecOf : TypeExpr → Except LookupError ValueCodec)
    (bindings : TypeExpr.Bindings) : List Parameter → List Slot → List Field → Prop where
  | nil : Replies codecOf bindings [] [] []
  | val (parameter left parameters slots fields) : parameter.way = .val →
      Replies codecOf bindings parameters slots fields →
      Replies codecOf bindings (parameter :: parameters) (.val left :: slots) fields
  | ref (parameter value codec bytes parameters slots fields) : parameter.way = .ref →
      Encodes codecOf (parameter.type.substitute bindings) value codec bytes →
      Replies codecOf bindings parameters slots fields →
      Replies codecOf bindings (parameter :: parameters) (.ref value :: slots)
        (⟨codec, value⟩ :: fields)
  | out (parameter value codec bytes parameters slots fields) : parameter.way = .out →
      Encodes codecOf (parameter.type.substitute bindings) value codec bytes →
      Replies codecOf bindings parameters slots fields →
      Replies codecOf bindings (parameter :: parameters) (.out (some value) :: slots)
        (⟨codec, value⟩ :: fields)

/-- `Results codecOf returnType returned fields` says that `returned` has the declared form, with a
value that can be encoded exactly when the return type is not `void`, and that `fields` is the value
with its codec. -/
inductive Results (codecOf : TypeExpr → Except LookupError ValueCodec) (returnType : TypeExpr) :
    Returned host → List Field → Prop where
  | void : returnType = .void → Results codecOf returnType .void []
  | value (value codec bytes) : returnType ≠ .void →
      Encodes codecOf returnType value codec bytes →
      Results codecOf returnType (.value value) [⟨codec, value⟩]

section Request

variable {catalog : Catalog} {bindings : TypeExpr.Bindings} {parameters : List Parameter}
  {bound : List BoundParameter} {bytes : Bytes} {slots : List Slot}

/-- Each slot has the way of its parameter. -/
theorem Requests.way_eq (h : Requests catalog.resolve bindings parameters bytes slots) :
    slots.map Slot.way = parameters.map Parameter.way := by
  induction h with
  | nil => rfl
  | val parameter value codec bytes parameters rest slots hway _ _ ih =>
      rw [List.map_cons, List.map_cons, ih, hway]
      rfl
  | ref parameter value codec bytes parameters rest slots hway _ _ ih =>
      rw [List.map_cons, List.map_cons, ih, hway]
      rfl
  | out parameter parameters rest slots hway _ ih =>
      rw [List.map_cons, List.map_cons, ih, hway]
      rfl

/-- What was encoded by itself is laid out in the same way anywhere. -/
theorem lays_of_encodes (hcatalog : catalog.Sound) {type : TypeExpr} {value : Value}
    {codec : ValueCodec} {bytes : Bytes} (h : Encodes catalog.resolve type value codec bytes) :
    Field.Lays ⟨codec, value⟩ bytes :=
  Field.lays_of_encoded (Catalog.resolve_of_closed hcatalog h.codec_eq) h.encoded_eq

/-- The codec of a parameter is that of its type. -/
theorem codec_of_encodes {parameter : Parameter} {b : BoundParameter}
    (hbinds : b.Binds catalog bindings parameter) {value : Value} {codec : ValueCodec}
    {bytes : Bytes}
    (h : Encodes catalog.resolve (parameter.type.substitute bindings) value codec bytes) :
    b.codec = codec := by
  have hcodec : catalog.resolve (parameter.type.substitute bindings) = .ok b.codec :=
    hbinds.type_eq ▸ hbinds.codec_eq
  exact Except.ok.inj (hcodec.symm.trans h.codec_eq)

/-- Decoding the bytes of a request gives its slots, and ends behind them. -/
theorem decodeSlots_of_requests (hcatalog : catalog.Sound)
    (h : Requests catalog.resolve bindings parameters bytes slots)
    (hbinds : List.Forall₂ (BoundParameter.Binds catalog bindings) parameters bound)
    (position : Nat) (tail : Bytes) :
    Invoker.decodeSlots bound ⟨position, bytes ++ tail⟩ =
      .ok slots ⟨position + bytes.length, tail⟩ := by
  induction h generalizing bound position with
  | nil =>
      cases hbinds
      rfl
  | val parameter value codec bytes parameters rest slots hway hencodes _ ih =>
      obtain ⟨b, bound, hbound, hrest, rfl⟩ := List.forall₂_cons_left_iff.1 hbinds
      have hvalue := (lays_of_encodes hcatalog hencodes).decode_eq position (rest ++ tail)
      rw [← codec_of_encodes hbound hencodes] at hvalue
      rw [List.append_assoc, List.length_append, ← Nat.add_assoc]
      exact Invoker.decodeSlots_of_val (hbound.way_eq.trans hway) hvalue (ih hrest _)
  | ref parameter value codec bytes parameters rest slots hway hencodes _ ih =>
      obtain ⟨b, bound, hbound, hrest, rfl⟩ := List.forall₂_cons_left_iff.1 hbinds
      have hvalue := (lays_of_encodes hcatalog hencodes).decode_eq position (rest ++ tail)
      rw [← codec_of_encodes hbound hencodes] at hvalue
      rw [List.append_assoc, List.length_append, ← Nat.add_assoc]
      exact Invoker.decodeSlots_of_ref (hbound.way_eq.trans hway) hvalue (ih hrest _)
  | out parameter parameters rest slots hway _ ih =>
      obtain ⟨b, bound, hbound, hrest, rfl⟩ := List.forall₂_cons_left_iff.1 hbinds
      exact Invoker.decodeSlots_of_out (hbound.way_eq.trans hway) (ih hrest position)

/-- Without parameters in the request every slot is an output without a value. -/
theorem slots_of_no_request (h : Requests catalog.resolve bindings parameters bytes slots)
    (hbinds : List.Forall₂ (BoundParameter.Binds catalog bindings) parameters bound)
    (hnone : (bound.any fun parameter => parameter.way.isRequest) = false) :
    slots = bound.map fun _ => .out none := by
  induction h generalizing bound with
  | nil =>
      cases hbinds
      rfl
  | val parameter value codec bytes parameters rest slots hway _ _ _ =>
      obtain ⟨b, bound, hbound, -, rfl⟩ := List.forall₂_cons_left_iff.1 hbinds
      simp [hbound.way_eq, hway, Way.isRequest] at hnone
  | ref parameter value codec bytes parameters rest slots hway _ _ _ =>
      obtain ⟨b, bound, hbound, -, rfl⟩ := List.forall₂_cons_left_iff.1 hbinds
      simp [hbound.way_eq, hway, Way.isRequest] at hnone
  | out parameter parameters rest slots hway _ ih =>
      obtain ⟨b, bound, hbound, hrest, rfl⟩ := List.forall₂_cons_left_iff.1 hbinds
      rw [List.any_cons, Bool.or_eq_false_iff] at hnone
      rw [List.map_cons, ih hrest hnone.2]

/-- A request is decoded wherever it stands in the buffer. -/
theorem requestSlots_of_requests (hcatalog : catalog.Sound)
    (h : Requests catalog.resolve bindings parameters bytes slots)
    (hbinds : List.Forall₂ (BoundParameter.Binds catalog bindings) parameters bound)
    (before after : Bytes) :
    Invoker.requestSlots bound (before ++ bytes ++ after) before.length = .ok slots := by
  cases hany : bound.any fun parameter => parameter.way.isRequest with
  | false =>
      rw [Invoker.requestSlots_of_unread hany, slots_of_no_request h hbinds hany]
  | true =>
      rw [Invoker.requestSlots_of_le hany (by simp), List.append_assoc, List.drop_left,
        decodeSlots_of_requests hcatalog h hbinds before.length after]
      rfl

end Request

section Reply

variable {codecOf : TypeExpr → Except LookupError ValueCodec} {catalog : Catalog}
  {bindings : TypeExpr.Bindings} {parameters : List Parameter} {bound : List BoundParameter}
  {slots : List Slot} {fields : List Field}

/-- A reply leaves no output without a value. -/
theorem Replies.findIdx?_eq_none (h : Replies codecOf bindings parameters slots fields) :
    slots.findIdx? Slot.isUnassigned = none := by
  rw [List.findIdx?_eq_none_iff]
  induction h with
  | nil => exact nofun
  | val parameter left parameters slots fields _ _ ih => exact List.forall_mem_cons.2 ⟨rfl, ih⟩
  | ref parameter value codec bytes parameters slots fields _ _ _ ih =>
      exact List.forall_mem_cons.2 ⟨rfl, ih⟩
  | out parameter value codec bytes parameters slots fields _ _ _ ih =>
      exact List.forall_mem_cons.2 ⟨rfl, ih⟩

/-- A parameter for the response adds its codec with the value in its slot. -/
theorem zipWith_responseCodecs_cons {b : BoundParameter} {slot : Slot} {value : Value}
    (hway : b.way.isResponse = true) (hvalue : slot.response? = some value) :
    List.zipWith Field.mk (Signature.responseCodecs (b :: bound))
        ((slot :: slots).filterMap Slot.response?) =
      ⟨b.codec, value⟩ :: List.zipWith Field.mk (Signature.responseCodecs bound)
        (slots.filterMap Slot.response?) := by
  simp [Signature.responseCodecs, hway, hvalue]

/-- The codecs and the values for the response come in the same order, so that each value meets the
codec of its parameter. -/
theorem Replies.zipWith_eq (h : Replies catalog.resolve bindings parameters slots fields)
    (hbinds : List.Forall₂ (BoundParameter.Binds catalog bindings) parameters bound) :
    List.zipWith Field.mk (Signature.responseCodecs bound) (slots.filterMap Slot.response?) =
      fields := by
  induction h generalizing bound with
  | nil =>
      cases hbinds
      rfl
  | val parameter left parameters slots fields hway _ ih =>
      obtain ⟨b, bound, hbound, hrest, rfl⟩ := List.forall₂_cons_left_iff.1 hbinds
      have hskipped : Signature.responseCodecs (b :: bound) = Signature.responseCodecs bound := by
        simp [Signature.responseCodecs, hbound.way_eq, hway, Way.isResponse]
      rw [hskipped]
      exact ih hrest
  | ref parameter value codec bytes parameters slots fields hway hencodes _ ih =>
      obtain ⟨b, bound, hbound, hrest, rfl⟩ := List.forall₂_cons_left_iff.1 hbinds
      have hresponse : b.way.isResponse = true := by rw [hbound.way_eq, hway]; rfl
      rw [zipWith_responseCodecs_cons hresponse rfl, ih hrest, codec_of_encodes hbound hencodes]
  | out parameter value codec bytes parameters slots fields hway hencodes _ ih =>
      obtain ⟨b, bound, hbound, hrest, rfl⟩ := List.forall₂_cons_left_iff.1 hbinds
      have hresponse : b.way.isResponse = true := by rw [hbound.way_eq, hway]; rfl
      rw [zipWith_responseCodecs_cons hresponse rfl, ih hrest, codec_of_encodes hbound hencodes]

/-- The fields of a reply can be laid out. -/
theorem Replies.exists_lays (hcatalog : catalog.Sound)
    (h : Replies catalog.resolve bindings parameters slots fields) :
    ∃ pieces, List.Forall₂ Field.Lays fields pieces := by
  induction h with
  | nil => exact ⟨[], .nil⟩
  | val parameter left parameters slots fields _ _ ih => exact ih
  | ref parameter value codec bytes parameters slots fields _ hencodes _ ih =>
      obtain ⟨pieces, hlays⟩ := ih
      exact ⟨bytes :: pieces, .cons (lays_of_encodes hcatalog hencodes) hlays⟩
  | out parameter value codec bytes parameters slots fields _ hencodes _ ih =>
      obtain ⟨pieces, hlays⟩ := ih
      exact ⟨bytes :: pieces, .cons (lays_of_encodes hcatalog hencodes) hlays⟩

end Reply

/-- The fields of the response are those of the reply and of the result, nothing is wrong with them,
and they can be laid out. -/
theorem responseFields_spec {catalog : Catalog} (hcatalog : catalog.Sound) {signature : Signature}
    {method : Method host} {generics : List TypeExpr}
    (hsignature : signature.Describes method generics catalog) {layout : ResponseLayout}
    (hdirect : signature.completion = .direct layout) {returned : Returned host} {slots : List Slot}
    {fields results : List Field}
    (hreplies : Replies catalog.resolve (method.bindings generics) method.parameters slots fields)
    (hresults : Results catalog.resolve (method.resolvedReturn generics) returned results) :
    directFaults signature.returnType returned slots = [] ∧
      signature.responseFields returned slots = fields ++ results ∧
      ∃ pieces, List.Forall₂ Field.Lays (fields ++ results) pieces := by
  obtain ⟨pieces, hlays⟩ := hreplies.exists_lays hcatalog
  have hresult := hsignature.direct_result hdirect
  have hlayout : signature.completion.result = layout.result := by
    rw [hdirect]
    rfl
  unfold directFaults Signature.responseFields
  rw [hreplies.findIdx?_eq_none, hreplies.zipWith_eq hsignature.parameters, hlayout]
  rw [← hsignature.returnType_eq] at hresults
  cases hresults with
  | void hvoid =>
      refine ⟨by simp [hvoid], ?_, pieces, by simpa using hlays⟩
      cases layout.result <;> rfl
  | value value codec bytes hvalue hencodes =>
      -- The codec of the result is that of the return type, since no other is registered for it.
      rw [if_neg hvalue] at hresult
      obtain ⟨result, hsome, htype⟩ := Option.map_eq_some_iff.1 hresult
      have hcodec := hsignature.result_codec result (hlayout.trans hsome)
      rw [htype] at hcodec
      obtain rfl : result.codec = codec := Except.ok.inj (hcodec.symm.trans hencodes.codec_eq)
      refine ⟨by simp [hvalue], by rw [hsome], pieces ++ [bytes], ?_⟩
      exact List.rel_append hlays (.cons (lays_of_encodes hcatalog hencodes) .nil)

namespace Service

/-- On a standard registry, whatever was looked up and compiled in it before, a direct call whose
values can be encoded calls the handler once with the values of the request, and answers with a
payload as long as the sizes of the response values add up to, from which they are read back. -/
theorem invoke_round_trip (steps : List Registry.Step) (hsteps : Registry.registered steps = [])
    (service : Service host) (path : ServicePath) (generics : List TypeExpr)
    (invoker : Invoker host) (accessors : List (Accessor host)) (method : Method host)
    (hlocates : service.Locates path accessors method)
    (hcompile : (service.compile path generics
      (.run (.registerStandard :: steps) .empty)).1.value = .ok invoker)
    (hdirect : invoker.remoting = .direct)
    (object target : host.Object) (state middle : host.State) (passed : List (Effect host))
    (htype : ∀ type, service.serviceType = some type → host.typeOf object = type)
    (hfollows : Follows 0 accessors object state (.ok target) middle passed)
    (bytes : Bytes) (slots : List Slot)
    (hrequest : Requests (Registry.run (.registerStandard :: steps) .empty).codecOf
      (method.bindings generics) method.parameters bytes slots)
    (returned : Returned host) (final : Call host)
    (hhandler : method.handler target ⟨⟨slots, generics⟩, middle⟩ = .ok returned final)
    (fields results : List Field)
    (hreplies : Replies (Registry.run (.registerStandard :: steps) .empty).codecOf
      (method.bindings generics) method.parameters final.arguments.slots fields)
    (hresults : Results (Registry.run (.registerStandard :: steps) .empty).codecOf
      (method.resolvedReturn generics) returned results)
    (before after : Bytes) :
    ∃ payload sizes effects,
      invoker.Observed object (before ++ bytes ++ after) before.length state
        (.ready (.ok payload)) final.state effects ∧
      effects.filter Effect.isCall = [.call target ⟨slots, generics⟩] ∧
      slots.map Slot.way = method.parameters.map Parameter.way ∧
      Field.sizes (fields ++ results) = .ok sizes ∧ payload.length = sizes.sum ∧
      ValueCodec.decodeAll ((fields ++ results).map Field.codec) (.ofBytes payload) =
        .ok ((fields ++ results).map Field.value) ⟨payload.length, []⟩ := by
  have hregistry := Registry.run_standard_caches hsteps
  have hcodecs := funext hregistry.codecOf_eq
  rw [hcodecs] at hrequest hreplies hresults
  have hspec := (service.compile_spec hregistry path generics).2
  rw [hcompile] at hspec
  obtain ⟨_, _, hcompiles⟩ := hspec
  obtain ⟨rfl, rfl⟩ := hlocates.unique hcompiles.locates
  -- The response: its fields are laid out one behind the other, and read back from there.
  have hsignature := hcompiles.signature
  obtain ⟨layout, hlayout⟩ := Invoker.exists_layout_of_direct hdirect
  obtain ⟨hfaults, hfields, pieces, hlays⟩ := responseFields_spec
    Registry.standardRegistrations_sound hsignature hlayout hreplies hresults
  have hpayload := Field.encodeAll_of_lays hlays
  have hdecode := Field.decodeAll_of_lays hlays 0 []
  rw [List.append_nil, Nat.zero_add] at hdecode
  have hresponds : invoker.Responds returned final.arguments.slots
      (.ready (.ok pieces.flatten)) := by
    have hencoded := Invoker.Responds.encoded hdirect hfaults
    rw [hfields, hpayload] at hencoded
    exact hencoded
  -- The call: it passes every stage up to the response.
  have hslots := requestSlots_of_requests Registry.standardRegistrations_sound hrequest
    hsignature.parameters before after
  have hcourse := Invoker.Course.returned target middle passed slots returned final _
    (hcompiles.serviceType_eq ▸ htype) (hcompiles.navigation_eq ▸ hfollows) hslots
    (by rw [hcompiles.handler_eq, hsignature.generics_eq]; exact hhandler) hresponds
  refine ⟨pieces.flatten, pieces.map List.length, _,
    (Invoker.observed_iff hsignature object _ _ state _ _ _).2 hcourse, ?_, hrequest.way_eq,
    Field.sizes_of_lays hlays, by simp, hdecode⟩
  rw [List.filter_append, hfollows.filter_isCall, hsignature.generics_eq]
  rfl

theorem counter_requests :
    Requests (Registry.run [.registerStandard] .empty).codecOf (counterMethod.bindings [])
      counterMethod.parameters [2, 3] [.val (some (.u8 2)), .ref (.u8 3), .out none] :=
  .val _ _ _ [2] _ _ _ rfl ⟨rfl, rfl⟩
    (.ref _ _ _ [3] _ _ _ rfl ⟨rfl, rfl⟩ (.out _ _ _ _ rfl .nil))

/-- The counter is called once with the two values of the request, which stands between other bytes,
and its three values come back. -/
theorem invoke_round_trip_counter :
    ∃ invoker, (counter.compile counterPath [] (.run [.registerStandard] .empty)).1.value =
        .ok invoker ∧
      ∃ payload effects, invoker.Observed () ([7] ++ [2, 3] ++ [9, 9]) 1 ()
          (.ready (.ok payload)) () effects ∧
        effects.filter Effect.isCall =
          [.call () ⟨[.val (some (.u8 2)), .ref (.u8 3), .out none], []⟩] ∧
        payload.length = 3 := by
  refine ⟨_, rfl, ?_⟩
  obtain ⟨payload, sizes, effects, hobserved, hcalls, -, hsizes, hlength, -⟩ :=
    invoke_round_trip [] rfl counter counterPath [] _ _ _ counter_locates rfl rfl () () () () _
      (by simp [counter, Host.single]) counter_follows _ _ counter_requests _ _ rfl _ _
      (.val _ _ _ _ _ rfl (.ref _ _ _ [5] _ _ _ rfl ⟨rfl, rfl⟩
        (.out _ _ _ [3] _ _ _ rfl ⟨rfl, rfl⟩ .nil)))
      (.value _ _ [1] (by decide) ⟨rfl, rfl⟩) [7] [9, 9]
  obtain rfl : [1, 1, 1] = sizes := Except.ok.inj hsizes
  exact ⟨payload, effects, hobserved, hcalls, hlength⟩

end Service

end Switchboard
