import Switchboard.Invoker.Basic
import Switchboard.Proofs.Invoker.Signature
import Switchboard.Proofs.Registry.Standard

/-!
# What a call reads of its buffer

Decoding the slots of a call is a local action when the codecs of its parameters read with local
actions. The main results are `Invoker.requestSlots_shift` and `Invoker.requestSlots_append`, which
say that then neither the bytes in front of a request nor those behind it have an influence on what
is decoded. When no parameter is read, no byte has, and this is what decoding would give as well.
-/

namespace Switchboard.Invoker

section Decode

variable {b : BoundParameter} {bound : List BoundParameter} {slots : List Slot} {value : Value}
  {reader next after : Reader}

/-- The slots of one parameter and of those behind it. -/
theorem decodeSlots_of_val (hway : b.way = .val) (hvalue : b.codec.decode reader = .ok value next)
    (hrest : decodeSlots bound next = .ok slots after) :
    decodeSlots (b :: bound) reader = .ok (.val (some value) :: slots) after := by
  simp only [decodeSlots, hway]
  refine (Action.bind_of_ok hvalue).trans ?_
  show (decodeSlots bound >>= fun slots => pure (Slot.val (some value) :: slots)) next = _
  exact Action.bind_of_ok hrest

theorem decodeSlots_of_ref (hway : b.way = .ref) (hvalue : b.codec.decode reader = .ok value next)
    (hrest : decodeSlots bound next = .ok slots after) :
    decodeSlots (b :: bound) reader = .ok (.ref value :: slots) after := by
  simp only [decodeSlots, hway]
  refine (Action.bind_of_ok hvalue).trans ?_
  show (decodeSlots bound >>= fun slots => pure (Slot.ref value :: slots)) next = _
  exact Action.bind_of_ok hrest

theorem decodeSlots_of_out (hway : b.way = .out)
    (hrest : decodeSlots bound reader = .ok slots after) :
    decodeSlots (b :: bound) reader = .ok (.out none :: slots) after := by
  simp only [decodeSlots, hway]
  exact (Action.bind_of_ok rfl).trans (Action.bind_of_ok hrest)

/-- Outputs alone are decoded without reading. -/
theorem decodeSlots_of_unread (h : ∀ b ∈ bound, b.way = .out) (reader : Reader) :
    decodeSlots bound reader = .ok (bound.map fun _ => .out none) reader := by
  induction bound with
  | nil => rfl
  | cons b bound ih =>
      obtain ⟨hway, hrest⟩ := List.forall_mem_cons.1 h
      exact decodeSlots_of_out hway (ih hrest)

theorem decodeSlots_local (h : ∀ b ∈ bound, ReadM.Local b.codec.decode) :
    ReadM.Local (decodeSlots bound) := by
  induction bound with
  | nil => exact .pure []
  | cons b bound ih =>
      obtain ⟨hfirst, hrest⟩ := List.forall_mem_cons.1 h
      have hslots : ∀ slot, ReadM.Local (do
          let slots ← decodeSlots bound
          pure (slot :: slots)) := fun slot => (ih hrest).bind fun _ => .pure _
      cases hway : b.way with
      | val =>
          simp only [decodeSlots, hway]
          exact hfirst.bind fun value => hslots (.val (some value))
      | ref =>
          simp only [decodeSlots, hway]
          exact hfirst.bind fun value => hslots (.ref value)
      | out =>
          simp only [decodeSlots, hway]
          exact (ReadM.Local.pure _).bind hslots

end Decode

section Request

variable {bound : List BoundParameter} {buffer : Bytes} {offset : Nat}

/-- A request that begins in the buffer is decoded from there. -/
theorem requestSlots_of_le (hreads : (bound.any fun b => b.way.isRequest) = true)
    (h : offset ≤ buffer.length) :
    requestSlots bound buffer offset =
      Action.outcome (decodeSlots bound ⟨offset, buffer.drop offset⟩) := by
  unfold requestSlots Reader.ofOffset
  rw [if_pos hreads, if_pos h]
  simp only [bind, Except.bind, EStateM.run]
  cases decodeSlots bound ⟨offset, buffer.drop offset⟩ <;> rfl

/-- A request cannot begin behind the end of the buffer. -/
theorem requestSlots_of_lt (hreads : (bound.any fun b => b.way.isRequest) = true)
    (h : buffer.length < offset) :
    requestSlots bound buffer offset = .error (.bufferUnderrun offset buffer.length) := by
  unfold requestSlots Reader.ofOffset
  rw [if_pos hreads, if_neg (Nat.not_le_of_lt h)]
  rfl

/-- Without parameters in the request, every slot is an output without a value. -/
theorem requestSlots_of_unread (hunread : (bound.any fun b => b.way.isRequest) = false)
    (buffer : Bytes) (offset : Nat) :
    requestSlots bound buffer offset = .ok (bound.map fun _ => .out none) := by
  unfold requestSlots
  rw [if_neg (by simp [hunread])]
  rfl

variable (hlocal : ∀ b ∈ bound, ReadM.Local b.codec.decode)
include hlocal

/-- The bytes in front of a request do not matter. -/
theorem requestSlots_shift (before buffer : Bytes) :
    requestSlots bound (before ++ buffer) before.length = requestSlots bound buffer 0 := by
  cases hreads : bound.any fun b => b.way.isRequest with
  | false => rw [requestSlots_of_unread hreads, requestSlots_of_unread hreads]
  | true =>
      rw [requestSlots_of_le hreads (by simp), requestSlots_of_le hreads (Nat.zero_le _),
        List.drop_left]
      exact (decodeSlots_local hlocal).outcome_eq before.length 0 buffer

/-- The bytes behind a request do not matter when it is long enough. -/
theorem requestSlots_append (henough : ∀ error, requestSlots bound buffer 0 = .error error →
      error.isUnderrun = false) (tail : Bytes) :
    requestSlots bound (buffer ++ tail) 0 = requestSlots bound buffer 0 := by
  cases hreads : bound.any fun b => b.way.isRequest with
  | false => rw [requestSlots_of_unread hreads, requestSlots_of_unread hreads]
  | true =>
      rw [requestSlots_of_le hreads (Nat.zero_le _)] at henough ⊢
      rw [requestSlots_of_le hreads (Nat.zero_le _)]
      exact (decodeSlots_local hlocal).outcome_append henough tail

end Request

section Binds

variable {catalog : Catalog} {bindings : TypeExpr.Bindings} {parameters : List Parameter}
  {bound : List BoundParameter}

/-- Every parameter keeps the way that it is passed. -/
theorem map_way_of_binds
    (h : List.Forall₂ (BoundParameter.Binds catalog bindings) parameters bound) :
    bound.map BoundParameter.way = parameters.map Parameter.way := by
  induction h with
  | nil => rfl
  | cons hfirst _ ih => rw [List.map_cons, List.map_cons, hfirst.way_eq, ih]

/-- Something is read from the request exactly when some parameter of the method is. -/
theorem any_isRequest_of_binds
    (h : List.Forall₂ (BoundParameter.Binds catalog bindings) parameters bound) :
    (bound.any fun b => b.way.isRequest) =
      parameters.any fun parameter => parameter.way.isRequest := by
  have hways := congrArg (List.any · Way.isRequest) (map_way_of_binds h)
  rw [List.any_map, List.any_map] at hways
  exact hways

/-- Every parameter has the codec of its type. -/
theorem resolve_of_binds
    (h : List.Forall₂ (BoundParameter.Binds catalog bindings) parameters bound) :
    ∀ b ∈ bound, catalog.resolve b.type = .ok b.codec := by
  induction h with
  | nil => exact nofun
  | cons hfirst _ ih => exact List.forall_mem_cons.2 ⟨hfirst.codec_eq, ih⟩

/-- The codecs of a standard registry read the parameters with local actions. -/
theorem local_of_binds
    (h : List.Forall₂ (BoundParameter.Binds (.of Registry.standardRegistrations) bindings)
      parameters bound) :
    ∀ b ∈ bound, ReadM.Local b.codec.decode := fun b hmem =>
  Registry.standardRegistrations_local (resolve_of_binds h b hmem)

theorem out_of_binds (h : List.Forall₂ (BoundParameter.Binds catalog bindings) parameters bound)
    (hout : ∀ parameter ∈ parameters, parameter.way = .out) : ∀ b ∈ bound, b.way = .out := by
  intro b hmem
  have hway : b.way ∈ parameters.map Parameter.way :=
    map_way_of_binds h ▸ List.mem_map_of_mem hmem
  obtain ⟨parameter, hparameter, hsame⟩ := List.mem_map.1 hway
  exact hsame ▸ hout parameter hparameter

/-- The slots of outputs alone, which are decoded without reading. -/
theorem decodeSlots_of_outs
    (h : List.Forall₂ (BoundParameter.Binds catalog bindings) parameters bound)
    (hout : ∀ parameter ∈ parameters, parameter.way = .out) (reader : Reader) :
    decodeSlots bound reader = .ok (parameters.map fun _ => .out none) reader := by
  rw [decodeSlots_of_unread (out_of_binds h hout), List.map_const', List.map_const', h.length_eq]

/-- The same slots come without a look at the buffer. -/
theorem requestSlots_of_outs
    (h : List.Forall₂ (BoundParameter.Binds catalog bindings) parameters bound)
    (hout : ∀ parameter ∈ parameters, parameter.way = .out) (buffer : Bytes) (offset : Nat) :
    requestSlots bound buffer offset = .ok (parameters.map fun _ => .out none) := by
  have hunread : (bound.any fun b => b.way.isRequest) = false := by
    rw [List.any_eq_false]
    intro b hmem
    rw [out_of_binds h hout b hmem]
    exact Bool.false_ne_true
  rw [requestSlots_of_unread hunread, List.map_const', List.map_const', h.length_eq]

end Binds

end Switchboard.Invoker
