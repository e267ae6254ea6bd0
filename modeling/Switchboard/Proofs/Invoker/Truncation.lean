import Switchboard.Proofs.Invoker.RoundTrip

/-!
# Truncated requests

A request that was cut off anywhere, and one that begins behind the end of the buffer, is too short.
The main result, `Service.truncated_request_underruns`, says that on a standard registry a call with
such a request ends with an underrun and never comes to the handler.
-/

namespace Switchboard

variable {host : Host}

/-- A request that was cut off, however little is missing, is found too short. -/
theorem requestSlots_of_cut {bindings : TypeExpr.Bindings} {parameters : List Parameter}
    {bound : List BoundParameter} {bytes cut : Bytes} {slots : List Slot}
    (h : Requests (Catalog.of Registry.standardRegistrations).resolve bindings parameters bytes
      slots)
    (hbinds : List.Forall₂ (BoundParameter.Binds (.of Registry.standardRegistrations) bindings)
      parameters bound)
    (hreads : (bound.any fun b => b.way.isRequest) = true) (hcut : cut <+: bytes)
    (hshort : cut ≠ bytes) (before : Bytes) :
    ∃ error, Invoker.requestSlots bound (before ++ cut) before.length = .error error ∧
      error.isUnderrun = true := by
  obtain ⟨more, rfl⟩ := hcut
  have hmore : more ≠ [] := by
    rintro rfl
    exact hshort (List.append_nil cut).symm
  have hwhole := decodeSlots_of_requests Registry.standardRegistrations_sound h hbinds
    before.length []
  rw [List.append_nil] at hwhole
  have hlocal := Invoker.decodeSlots_local (Invoker.local_of_binds hbinds)
  rw [Invoker.requestSlots_of_le hreads (by simp), List.drop_left]
  exact hlocal.underrun_of_cut hwhole hmore

namespace Service

/-- On a standard registry, whatever was looked up and compiled in it before, a call that reaches
its target with a request that was cut off ends with an underrun, and so does one whose offset is
beyond the buffer. The handler is not called, whatever the remoting of the method is. -/
theorem truncated_request_underruns (steps : List Registry.Step)
    (hsteps : Registry.registered steps = []) (service : Service host) (path : ServicePath)
    (generics : List TypeExpr) (invoker : Invoker host) (accessors : List (Accessor host))
    (method : Method host) (hlocates : service.Locates path accessors method)
    (hcompile : (service.compile path generics
      (.run (.registerStandard :: steps) .empty)).1.value = .ok invoker)
    (hreads : ∃ parameter ∈ method.parameters, parameter.way = .val ∨ parameter.way = .ref)
    (object target : host.Object) (state middle : host.State) (passed : List (Effect host))
    (htype : ∀ type, service.serviceType = some type → host.typeOf object = type)
    (hfollows : Follows 0 accessors object state (.ok target) middle passed) :
    (∀ bytes slots, Requests (Registry.run (.registerStandard :: steps) .empty).codecOf
        (method.bindings generics) method.parameters bytes slots →
      ∀ before cut, cut <+: bytes → cut ≠ bytes →
        ∃ error : InvokeError, error.isUnderrun = true ∧
          invoker.Observed object (before ++ cut) before.length state (.ready (.error error)) middle
            passed) ∧
    (∀ buffer offset, buffer.length < offset →
      ∃ error : InvokeError, error.isUnderrun = true ∧
        invoker.Observed object buffer offset state (.ready (.error error)) middle passed) ∧
    passed.filter Effect.isCall = [] := by
  have hregistry := Registry.run_standard_caches hsteps
  rw [funext hregistry.codecOf_eq]
  obtain ⟨_, _, hcompiles⟩ := exists_compiles hregistry hcompile
  obtain ⟨rfl, rfl⟩ := hlocates.unique hcompiles.locates
  have hsignature := hcompiles.signature
  have hany : (invoker.signature.parameters.any fun b => b.way.isRequest) = true := by
    rw [Invoker.any_isRequest_of_binds hsignature.parameters, List.any_eq_true]
    obtain ⟨parameter, hmem, hway⟩ := hreads
    refine ⟨parameter, hmem, ?_⟩
    rcases hway with hway | hway <;> rw [hway] <;> rfl
  -- Whatever is wrong with the request is seen as the result of the call, after the accessors.
  have hends : ∀ buffer offset (error : CodecError), error.isUnderrun = true →
      Invoker.requestSlots invoker.signature.parameters buffer offset = .error error →
      ∃ error : InvokeError, error.isUnderrun = true ∧
        invoker.Observed object buffer offset state (.ready (.error error)) middle passed := by
    intro buffer offset error hunderrun hslots
    have hcourse := Invoker.Course.undecodable target middle passed error
      (hcompiles.serviceType_eq ▸ htype) (hcompiles.navigation_eq ▸ hfollows) hslots
    exact ⟨.codec error, hunderrun, Invoker.observed_of_course hsignature hcourse⟩
  refine ⟨?_, ?_, hfollows.filter_isCall⟩
  · intro bytes slots hrequest before cut hcut hshort
    obtain ⟨error, hslots, hunderrun⟩ := requestSlots_of_cut hrequest hsignature.parameters hany
      hcut hshort before
    exact hends _ _ error hunderrun hslots
  · intro buffer offset hbeyond
    exact hends buffer offset _ rfl (Invoker.requestSlots_of_lt hany hbeyond)

/-- The second byte of a request to the counter is missing, and then the whole request. -/
theorem truncated_request_underruns_counter :
    ∃ invoker, (counter.compile counterPath [] (.run [.registerStandard] .empty)).1.value =
        .ok invoker ∧
      (∃ error : InvokeError, error.isUnderrun = true ∧
        invoker.Observed () ([7] ++ [2]) 1 () (.ready (.error error)) () [.access 0 ()]) ∧
      ∃ error : InvokeError, error.isUnderrun = true ∧
        invoker.Observed () [7] 2 () (.ready (.error error)) () [.access 0 ()] := by
  refine ⟨_, rfl, ?_⟩
  obtain ⟨hcut, hbeyond, -⟩ := truncated_request_underruns [] rfl counter counterPath [] _ _ _
    counter_locates rfl ⟨_, List.mem_cons_self, .inl rfl⟩ () () () () _
    (by simp [counter, Host.single]) counter_follows
  exact ⟨hcut _ _ counter_requests [7] [2] ⟨[3], rfl⟩ (by decide), hbeyond [7] 2 (by decide)⟩

end Service

end Switchboard
