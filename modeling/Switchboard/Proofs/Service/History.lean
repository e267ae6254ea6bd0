import Switchboard.Proofs.Action
import Switchboard.Service.Draft

/-!
# Histories of drafts

A draft grows step by step, and a step that is rejected leaves it as it was. `Service.Drafted` says
that a service is what became of a draft after some steps, and that so is every service below it.
The main result, `Service.Drafted.named`, says that the methods of such a service have distinct
names that can stand in a path, and so have its sub-services.
-/

namespace Switchboard

variable {host : Host}

theorem checkPathName_eq_ok_iff {empty tooLong : DraftError} {maxBytes : Nat} {name : String} :
    checkPathName empty tooLong maxBytes name = .ok () ↔
      IsSegment name ∧ name.utf8ByteSize ≤ maxBytes := by
  unfold checkPathName IsSegment
  by_cases hempty : name = ""
  · simp [hempty]
  · by_cases hlong : maxBytes < name.utf8ByteSize
    · simp [hempty, hlong]
    · cases hseparator : hasSeparator name <;> simp [hempty, hlong, Nat.le_of_not_lt hlong]

theorem checkServiceName_eq_ok_iff {name : String} :
    checkServiceName name = .ok () ↔
      IsSegment name ∧ name.utf8ByteSize ≤ maxServiceNameBytes :=
  checkPathName_eq_ok_iff

theorem checkMethodName_eq_ok_iff {name : String} :
    checkMethodName name = .ok () ↔ IsSegment name ∧ name.utf8ByteSize ≤ maxMethodNameBytes :=
  checkPathName_eq_ok_iff

/-- Names of one kind: they are distinct, and each of them can stand in a path. -/
structure DistinctSegments (names : List String) : Prop where
  isSegment : ∀ name ∈ names, IsSegment name
  nodup : names.Nodup

theorem DistinctSegments.nil : DistinctSegments [] := ⟨nofun, .nil⟩

/-- One more name of the same kind, which is not taken yet. -/
theorem DistinctSegments.concat {names : List String} {name : String} (h : DistinctSegments names)
    (hname : IsSegment name) (hnew : name ∉ names) : DistinctSegments (names ++ [name]) where
  isSegment := by
    intro other hmem
    rcases List.mem_append.1 hmem with hold | hadded
    · exact h.isSegment other hold
    · obtain rfl : other = name := List.mem_singleton.1 hadded
      exact hname
  nodup := by
    refine List.nodup_append.2 ⟨h.nodup, List.pairwise_singleton _ _, ?_⟩
    intro old hold added hadded hsame
    exact hnew (List.mem_singleton.1 hadded ▸ hsame ▸ hold)

/-- Among items with distinct keys, a search by key finds the item that has it. -/
theorem find?_eq_some_iff_of_nodup {α : Type} {key : α → String} {items : List α}
    (h : (items.map key).Nodup) {name : String} {item : α} :
    (items.find? fun item => key item = name) = some item ↔ item ∈ items ∧ key item = name := by
  constructor
  · intro hfind
    exact ⟨List.mem_of_find?_eq_some hfind, by simpa using List.find?_some hfind⟩
  · rintro ⟨hmem, hkey⟩
    cases hfind : items.find? fun item => key item = name with
    | none => exact absurd hkey (by simpa using List.find?_eq_none.1 hfind item hmem)
    | some found =>
        have hfound : key found = name := by simpa using List.find?_some hfind
        rw [List.inj_on_of_nodup_map h (List.mem_of_find?_eq_some hfind) hmem
          (hfound.trans hkey.symm)]

/-- Among items with distinct keys, a search by key does not depend on their order. -/
theorem find?_eq_of_perm {α : Type} {key : α → String} {items others : List α}
    (h : items.Perm others) (hkeys : (items.map key).Nodup) {name : String} :
    (items.find? fun item => key item = name) = others.find? fun item => key item = name := by
  have hothers : (others.map key).Nodup := (h.map key).nodup_iff.1 hkeys
  refine Option.ext fun item => ?_
  rw [find?_eq_some_iff_of_nodup hkeys, find?_eq_some_iff_of_nodup hothers, h.mem_iff]

/-- A step of a draft: one more method, a declaration on a method, or one more sub-service. -/
inductive DraftStep (host : Host) where
  | method (name : String) (handler : Handler host)
  | declaration (method : String) (declaration : Declaration)
  | subservice (name : String) (accessor : Accessor host) (service : Service host)

namespace ServiceDraft

/-- The draft after a step, unless the step is rejected. -/
def step (draft : ServiceDraft host) : DraftStep host → Except DraftError (ServiceDraft host)
  | .method name handler => draft.addMethod name handler
  | .declaration method declaration => draft.declare method declaration
  | .subservice name accessor service => draft.addSubservice name accessor service

/-- The draft to go on with after a step, which is the one before it if the step is rejected. -/
def record (draft : ServiceDraft host) (step : DraftStep host) : ServiceDraft host :=
  match draft.step step with
  | .ok next => next
  | .error _ => draft

/-- The draft after steps some of which may be rejected. -/
def run (draft : ServiceDraft host) (steps : List (DraftStep host)) : ServiceDraft host :=
  steps.foldl record draft

variable {draft next : ServiceDraft host}

theorem start_eq_ok_iff {name : String} {serviceType : Option ServiceType} :
    start name serviceType = .ok draft ↔
      (IsSegment name ∧ name.utf8ByteSize ≤ maxServiceNameBytes) ∧
        ⟨name, serviceType, [], []⟩ = draft := by
  unfold start
  rw [check_bind_eq_ok_iff, ← checkServiceName_eq_ok_iff]
  simp [pure, Except.pure]

/-- A method is added when its name can stand in a path and is not taken yet. -/
theorem addMethod_eq_ok_iff {name : String} {handler : Handler host} :
    draft.addMethod name handler = .ok next ↔
      (IsSegment name ∧ name.utf8ByteSize ≤ maxMethodNameBytes) ∧
        name ∉ draft.methods.map MethodDraft.name ∧
        { draft with methods := draft.methods ++ [.start name handler] } = next := by
  unfold addMethod
  rw [check_bind_eq_ok_iff, ← checkMethodName_eq_ok_iff]
  by_cases hnew : name ∈ draft.methods.map MethodDraft.name
  · simp [hnew, bind, Except.bind, throw, throwThe, MonadExceptOf.throw]
  · simp [hnew, pure, Except.pure]

/-- A sub-service is added when its name can stand in a path and is not taken yet. -/
theorem addSubservice_eq_ok_iff {name : String} {accessor : Accessor host}
    {service : Service host} :
    draft.addSubservice name accessor service = .ok next ↔
      (IsSegment name ∧ name.utf8ByteSize ≤ maxServiceNameBytes) ∧
        name ∉ draft.subservices.map Subservice.name ∧
        { draft with subservices := draft.subservices ++ [⟨name, accessor, service⟩] } = next := by
  unfold addSubservice
  rw [check_bind_eq_ok_iff, ← checkServiceName_eq_ok_iff]
  by_cases hnew : name ∈ draft.subservices.map Subservice.name
  · simp [hnew, bind, Except.bind, throw, throwThe, MonadExceptOf.throw]
  · simp [hnew, pure, Except.pure]

/-- A declaration on a method leaves everything alone but the drafts of the methods. -/
theorem declare_eq_ok_iff {method : String} {declaration : Declaration} :
    draft.declare method declaration = .ok next ↔
      ∃ methods, declareIn method declaration draft.methods = .ok methods ∧
        { draft with methods := methods } = next := by
  unfold declare
  cases declareIn method declaration draft.methods with
  | ok methods => simp [bind, Except.bind, pure, Except.pure]
  | error error => simp [bind, Except.bind]

end ServiceDraft

theorem MethodDraft.declare_name {draft next : MethodDraft host} {declaration : Declaration}
    (h : draft.declare declaration = .ok next) : next.name = draft.name := by
  cases declaration with
  | parameter name type way =>
      simp only [declare] at h
      split_ifs at h
      cases h
      rfl
  | generic name =>
      simp only [declare] at h
      split_ifs at h
      cases h
      rfl
  | returns type => exact Except.ok.inj h ▸ rfl
  | remoting kind => exact Except.ok.inj h ▸ rfl

namespace ServiceDraft

variable {draft next : ServiceDraft host}

section Declare

variable {method : String} {declaration : Declaration} {draft : MethodDraft host}
  {drafts changed : List (MethodDraft host)}

/-- A declaration is for the first method of its name. -/
theorem declareIn_cons_of_eq (h : draft.name = method) :
    declareIn method declaration (draft :: drafts) = .ok changed ↔
      ∃ next, draft.declare declaration = .ok next ∧ next :: drafts = changed := by
  rw [declareIn, if_pos h]
  cases draft.declare declaration <;> simp [bind, Except.bind, pure, Except.pure]

theorem declareIn_cons_of_ne (h : draft.name ≠ method) :
    declareIn method declaration (draft :: drafts) = .ok changed ↔
      ∃ rest, declareIn method declaration drafts = .ok rest ∧ draft :: rest = changed := by
  rw [declareIn, if_neg h]
  cases declareIn method declaration drafts <;> simp [bind, Except.bind, pure, Except.pure]

/-- A declaration does not rename methods. -/
theorem map_name_of_declareIn (h : declareIn method declaration drafts = .ok changed) :
    changed.map MethodDraft.name = drafts.map MethodDraft.name := by
  induction drafts generalizing changed with
  | nil =>
      cases h
      rfl
  | cons draft drafts ih =>
      by_cases hname : draft.name = method
      · obtain ⟨next, hdeclare, rfl⟩ := (declareIn_cons_of_eq hname).1 h
        rw [List.map_cons, List.map_cons, MethodDraft.declare_name hdeclare]
      · obtain ⟨rest, hrest, rfl⟩ := (declareIn_cons_of_ne hname).1 h
        rw [List.map_cons, List.map_cons, ih hrest]

end Declare

/-- `draft.Named` says that the service can stand in a path, and that so can its methods and its
sub-services, which have distinct names. A method and a sub-service may have the same name. -/
structure Named (draft : ServiceDraft host) : Prop where
  name : IsSegment draft.name
  methods : DistinctSegments (draft.methods.map MethodDraft.name)
  subservices : DistinctSegments (draft.subservices.map Subservice.name)

theorem named_of_start {name : String} {serviceType : Option ServiceType}
    (h : start name serviceType = .ok draft) : draft.Named := by
  obtain ⟨⟨hname, -⟩, rfl⟩ := start_eq_ok_iff.1 h
  exact ⟨hname, .nil, .nil⟩

theorem Named.step (h : draft.Named) {step : DraftStep host} (hstep : draft.step step = .ok next) :
    next.Named := by
  cases step with
  | method name handler =>
      obtain ⟨⟨hname, -⟩, hnew, rfl⟩ := addMethod_eq_ok_iff.1 hstep
      refine ⟨h.name, ?_, h.subservices⟩
      rw [List.map_append]
      exact h.methods.concat hname hnew
  | declaration method declaration =>
      obtain ⟨methods, hmethods, rfl⟩ := declare_eq_ok_iff.1 hstep
      refine ⟨h.name, ?_, h.subservices⟩
      rw [map_name_of_declareIn hmethods]
      exact h.methods
  | subservice name accessor service =>
      obtain ⟨⟨hname, -⟩, hnew, rfl⟩ := addSubservice_eq_ok_iff.1 hstep
      refine ⟨h.name, h.methods, ?_⟩
      rw [List.map_append]
      exact h.subservices.concat hname hnew

/-- What holds of a draft, and of every draft after a step that is not rejected, holds after any
steps. -/
theorem run_induction (Property : ServiceDraft host → Prop) (hstart : Property draft)
    (steps : List (DraftStep host))
    (hstep : ∀ draft, ∀ step ∈ steps, ∀ next, Property draft → draft.step step = .ok next →
      Property next) :
    Property (draft.run steps) := by
  induction steps generalizing draft with
  | nil => exact hstart
  | cons step steps ih =>
      have hfirst : Property (draft.record step) := by
        unfold record
        cases hresult : draft.step step with
        | error error => exact hstart
        | ok next => exact hstep draft step List.mem_cons_self next hstart hresult
      exact ih hfirst fun draft step hmem => hstep draft step (List.mem_cons_of_mem _ hmem)

theorem Named.run (h : draft.Named) (steps : List (DraftStep host)) : (draft.run steps).Named :=
  run_induction Named h steps fun _ _ _ _ hnamed hstep => hnamed.step hstep

/-- A sub-service of a draft was there from the start, or some step added it. -/
theorem mem_subservices_of_run {steps : List (DraftStep host)} {subservice : Subservice host}
    (h : subservice ∈ (draft.run steps).subservices) :
    subservice ∈ draft.subservices ∨
      .subservice subservice.name subservice.accessor subservice.service ∈ steps := by
  refine run_induction (fun after => ∀ subservice ∈ after.subservices,
    subservice ∈ draft.subservices ∨
      .subservice subservice.name subservice.accessor subservice.service ∈ steps)
    (fun _ => .inl) steps ?_ subservice h
  intro before step hmem next hbefore hstep added hadded
  cases step with
  | method name handler =>
      obtain ⟨-, -, rfl⟩ := addMethod_eq_ok_iff.1 hstep
      exact hbefore added hadded
  | declaration method declaration =>
      obtain ⟨methods, -, rfl⟩ := declare_eq_ok_iff.1 hstep
      exact hbefore added hadded
  | subservice name accessor service =>
      obtain ⟨-, -, rfl⟩ := addSubservice_eq_ok_iff.1 hstep
      rcases List.mem_append.1 hadded with hold | hnew
      · exact hbefore added hold
      · obtain rfl := List.mem_singleton.1 hnew
        exact .inr hmem

end ServiceDraft

namespace Service

/-- `service.Drafted` says that `service` is what became of a draft after some steps, any of which
may have been rejected, and that so is every sub-service that was offered to the draft. -/
inductive Drafted : Service host → Prop where
  | finish (name serviceType draft steps) : ServiceDraft.start name serviceType = .ok draft →
      (∀ name accessor service, .subservice name accessor service ∈ steps → Drafted service) →
      Drafted (draft.run steps).finish

/-- `service.Named` says that the service can stand in a path, and that so can its methods and its
sub-services, which have distinct names. -/
structure Named (service : Service host) : Prop where
  name : IsSegment service.name
  methods : DistinctSegments (service.methods.map Method.name)
  subservices : DistinctSegments (service.subservices.map Subservice.name)

theorem named_of_draft {draft : ServiceDraft host} (h : draft.Named) : draft.finish.Named where
  name := h.name
  methods := by
    have hnames : draft.finish.methods.map Method.name = draft.methods.map MethodDraft.name :=
      List.map_map
    rw [hnames]
    exact h.methods
  subservices := h.subservices

theorem Drafted.named {service : Service host} (h : service.Drafted) : service.Named := by
  obtain ⟨name, serviceType, draft, steps, hstart, -⟩ := h
  exact named_of_draft ((ServiceDraft.named_of_start hstart).run steps)

theorem Drafted.subservice {service : Service host} (h : service.Drafted)
    {subservice : Subservice host} (hmem : subservice ∈ service.subservices) :
    subservice.service.Drafted := by
  obtain ⟨name, serviceType, draft, steps, hstart, hsteps⟩ := h
  obtain ⟨-, rfl⟩ := ServiceDraft.start_eq_ok_iff.1 hstart
  rcases ServiceDraft.mem_subservices_of_run hmem with hnone | hadded
  · exact nomatch hnone
  · exact hsteps _ _ _ hadded

end Service

end Switchboard
