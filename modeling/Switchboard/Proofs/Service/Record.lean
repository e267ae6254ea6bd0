import Switchboard.Proofs.Service.History

/-!
# What a draft records

The steps of a draft that are not rejected are all that is left of its history:
`ServiceDraft.accepted` lists them, `Method.ofDeclarations` is the method that declarations make,
and `Service.Same` says that two services have the same contents, in whichever order. The main
result, `ServiceDraft.run_records`, says which steps are rejected, that these leave no trace, that
the finished service is made of the others, and that steps for different names may be exchanged.
-/

namespace Switchboard

variable {host : Host}

namespace Declaration

/-- The parameter that is declared, if one is. -/
@[simp]
def parameter? : Declaration → Option Parameter
  | parameter name type way => some ⟨name, type, way⟩
  | generic _ | returns _ | remoting _ => none

/-- The generic parameter that is declared, if one is. -/
@[simp]
def generic? : Declaration → Option String
  | generic name => some name
  | parameter _ _ _ | returns _ | remoting _ => none

/-- The return type that is declared, if one is. -/
@[simp]
def returns? : Declaration → Option TypeExpr
  | returns type => some type
  | parameter _ _ _ | generic _ | remoting _ => none

/-- The remoting that is declared, if one is. -/
@[simp]
def remoting? : Declaration → Option Remoting
  | remoting kind => some kind
  | parameter _ _ _ | generic _ | returns _ => none

end Declaration

/-- The method that declarations make: all parameters and generic parameters in order, the last
return type, and the last remoting or else the one that is inferred from that return type. -/
def Method.ofDeclarations (name : String) (handler : Handler host)
    (declarations : List Declaration) : Method host :=
  let returnType := (declarations.filterMap Declaration.returns?).getLast?.getD .void
  { name := name
    parameters := declarations.filterMap Declaration.parameter?
    returnType := returnType
    generics := declarations.filterMap Declaration.generic?
    remoting := (declarations.filterMap Declaration.remoting?).getLast?.getD (.infer returnType)
    handler := handler }

namespace DraftStep

/-- The declarations on one method among some steps. -/
def declarationsOn (method : String) (steps : List (DraftStep host)) : List Declaration :=
  steps.filterMap fun
    | .declaration target declared => if target = method then some declared else none
    | _ => none

@[simp]
theorem declarationsOn_nil (method : String) :
    declarationsOn method ([] : List (DraftStep host)) = [] := rfl

@[simp]
theorem declarationsOn_method (method name : String) (handler : Handler host)
    (steps : List (DraftStep host)) :
    declarationsOn method (.method name handler :: steps) = declarationsOn method steps := rfl

@[simp]
theorem declarationsOn_declaration (method target : String) (declared : Declaration)
    (steps : List (DraftStep host)) :
    declarationsOn method (.declaration target declared :: steps) =
      if target = method then declared :: declarationsOn method steps
      else declarationsOn method steps := by
  by_cases htarget : target = method <;> simp [declarationsOn, htarget]

@[simp]
theorem declarationsOn_subservice (method name : String) (accessor : Accessor host)
    (service : Service host) (steps : List (DraftStep host)) :
    declarationsOn method (.subservice name accessor service :: steps) =
      declarationsOn method steps := rfl

/-- The methods that some steps make, each out of the declarations behind the step that adds it. -/
def methodsOf : List (DraftStep host) → List (Method host)
  | [] => []
  | .method name handler :: steps =>
      .ofDeclarations name handler (declarationsOn name steps) :: methodsOf steps
  | .declaration _ _ :: steps | .subservice _ _ _ :: steps => methodsOf steps

/-- The sub-services that some steps add. -/
def subservicesOf (steps : List (DraftStep host)) : List (Subservice host) :=
  steps.filterMap fun
    | .subservice name accessor service => some ⟨name, accessor, service⟩
    | _ => none

/-- `step.Permitted service` says that the step may follow on the draft of `service`: a name that it
adds can stand where it is to stand, and is not taken yet. -/
def Permitted (service : Service host) : DraftStep host → Prop
  | .method name _ => (IsSegment name ∧ name.utf8ByteSize ≤ maxMethodNameBytes) ∧
      name ∉ service.methods.map Method.name
  | .subservice name _ _ => (IsSegment name ∧ name.utf8ByteSize ≤ maxServiceNameBytes) ∧
      name ∉ service.subservices.map Subservice.name
  | .declaration target (.parameter name _ _) => ∀ method ∈ service.methods, method.name = target →
      name ≠ "" ∧ name ∉ method.parameters.map Parameter.name
  | .declaration target (.generic name) => ∀ method ∈ service.methods, method.name = target →
      name ≠ "" ∧ name ∉ method.generics
  | .declaration _ (.returns _) | .declaration _ (.remoting _) => True

/-- What a step is about. A method and a sub-service may have the same name. -/
inductive Subject where
  | method (name : String)
  | subservice (name : String)
  deriving DecidableEq

/-- The method or the sub-service that the step is about. -/
def subject : DraftStep host → Subject
  | .method name _ | .declaration name _ => .method name
  | .subservice name _ _ => .subservice name

end DraftStep

/-- The steps that are not rejected, in order. -/
def ServiceDraft.accepted (draft : ServiceDraft host) :
    List (DraftStep host) → List (DraftStep host)
  | [] => []
  | step :: steps =>
      match draft.step step with
      | .ok next => step :: next.accepted steps
      | .error _ => draft.accepted steps

/-- `service.Same other` says that the two have the same methods and sub-services under the same
names, in whichever order they were added. -/
structure Service.Same (service other : Service host) : Prop where
  name_eq : service.name = other.name
  serviceType_eq : service.serviceType = other.serviceType
  methods : service.methods.Perm other.methods
  subservices : service.subservices.Perm other.subservices
  method?_eq (name : String) : service.method? name = other.method? name
  subservice?_eq (name : String) : service.subservice? name = other.subservice? name

/-- `method.Tidy` says that the name of a method is short enough, and that its parameters have
distinct names, and so have its generic parameters. -/
structure Method.Tidy (method : Method host) : Prop where
  short : method.name.utf8ByteSize ≤ maxMethodNameBytes
  parameters : (method.parameters.map Parameter.name).Nodup
  generics : method.generics.Nodup

/-- `service.Tidy` says that the names in a service are short enough and can stand in a path, and
that they are distinct wherever one of them is looked up. -/
structure Service.Tidy (service : Service host) : Prop where
  named : service.Named
  methods : ∀ method ∈ service.methods, method.Tidy
  subservices : ∀ subservice ∈ service.subservices,
    subservice.name.utf8ByteSize ≤ maxServiceNameBytes

namespace MethodDraft

/-- The draft with more declarations, none of which is rejected. -/
def extend (draft : MethodDraft host) (declarations : List Declaration) : MethodDraft host where
  name := draft.name
  parameters := draft.parameters ++ declarations.filterMap Declaration.parameter?
  returnType := (declarations.filterMap Declaration.returns?).getLast?.getD draft.returnType
  generics := draft.generics ++ declarations.filterMap Declaration.generic?
  remoting := (declarations.filterMap Declaration.remoting?).getLast?.or draft.remoting
  handler := draft.handler

variable {draft next : MethodDraft host} {declaration : Declaration}

theorem extend_nil (draft : MethodDraft host) : draft.extend [] = draft := by
  simp [extend]

theorem extend_extend (draft : MethodDraft host) (declarations more : List Declaration) :
    (draft.extend declarations).extend more = draft.extend (declarations ++ more) := by
  simp [extend, List.filterMap_append, List.getLast?_append, Option.or_assoc]

theorem finish_extend_start (name : String) (handler : Handler host)
    (declarations : List Declaration) :
    ((start name handler).extend declarations).finish =
      .ofDeclarations name handler declarations := by
  simp [finish, extend, start, Method.ofDeclarations]

/-- Which declarations a draft of a method takes. -/
def Takes (draft : MethodDraft host) : Declaration → Prop
  | .parameter name _ _ => name ≠ "" ∧ name ∉ draft.parameters.map Parameter.name
  | .generic name => name ≠ "" ∧ name ∉ draft.generics
  | .returns _ | .remoting _ => True

theorem declare_eq_ok_iff : draft.declare declaration = .ok next ↔
    draft.Takes declaration ∧ draft.extend [declaration] = next := by
  cases declaration with
  | parameter name type way =>
      simp only [declare, Takes]
      split_ifs with hempty htaken
      · simp [hempty]
      · simp [htaken]
      · simp [hempty, htaken, extend, List.filterMap_cons]
  | generic name =>
      simp only [declare, Takes]
      split_ifs with hempty htaken
      · simp [hempty]
      · simp [htaken]
      · simp [hempty, htaken, extend, List.filterMap_cons]
  | returns type => simp [declare, Takes, extend, List.filterMap_cons]
  | remoting kind => simp [declare, Takes, extend, List.filterMap_cons]

/-- The draft with one more declaration, if that is on the method of this name. -/
def extendOn (draft : MethodDraft host) (target : String) (declaration : Declaration) :
    MethodDraft host :=
  if draft.name = target then draft.extend [declaration] else draft

theorem extendOn_of_eq {target : String} (h : draft.name = target) (declaration : Declaration) :
    draft.extendOn target declaration = draft.extend [declaration] := if_pos h

theorem extendOn_of_ne {target : String} (h : draft.name ≠ target) (declaration : Declaration) :
    draft.extendOn target declaration = draft := if_neg h

@[simp]
theorem extendOn_name (draft : MethodDraft host) (target : String) (declaration : Declaration) :
    (draft.extendOn target declaration).name = draft.name := by
  unfold extendOn
  split <;> rfl

/-- Declarations on different methods may be made in either order. -/
theorem extendOn_comm {target other : String} (h : target ≠ other) (draft : MethodDraft host)
    (declaration another : Declaration) :
    (draft.extendOn target declaration).extendOn other another =
      (draft.extendOn other another).extendOn target declaration := by
  by_cases htarget : draft.name = target
  · have hother : draft.name ≠ other := htarget.trans_ne h
    rw [extendOn_of_ne hother, extendOn_of_ne ((extendOn_name ..).trans_ne hother)]
  · rw [extendOn_of_ne htarget, extendOn_of_ne ((extendOn_name ..).trans_ne htarget)]

/-- A declaration that is not rejected keeps the names tidy. -/
theorem tidy_extend (h : draft.finish.Tidy) (htakes : draft.Takes declaration) :
    (draft.extend [declaration]).finish.Tidy where
  short := h.short
  parameters := by
    cases declaration with
    | parameter name type way =>
        have hnew : (draft.parameters.map Parameter.name ++ [name]).Nodup :=
          List.concat_eq_append ▸ List.Nodup.concat htakes.2 h.parameters
        simpa [finish, extend] using hnew
    | generic name | returns type | remoting kind =>
        simpa [finish, extend, List.filterMap_cons] using h.parameters
  generics := by
    cases declaration with
    | generic name =>
        have hnew : (draft.generics ++ [name]).Nodup :=
          List.concat_eq_append ▸ List.Nodup.concat htakes.2 h.generics
        simpa [finish, extend] using hnew
    | parameter name type way | returns type | remoting kind =>
        simpa [finish, extend, List.filterMap_cons] using h.generics

end MethodDraft

namespace ServiceDraft

section Step

variable {draft next : ServiceDraft host} {step : DraftStep host}

/-- The draft with one more step, which is not rejected. -/
def add (draft : ServiceDraft host) : DraftStep host → ServiceDraft host
  | .method name handler => { draft with methods := draft.methods ++ [.start name handler] }
  | .declaration target declaration =>
      { draft with
        methods := draft.methods.map fun method => method.extendOn target declaration }
  | .subservice name accessor service =>
      { draft with subservices := draft.subservices ++ [⟨name, accessor, service⟩] }

/-- A declaration is for the only method of its name. -/
theorem declareIn_eq_ok_iff {target : String} {declaration : Declaration}
    {methods changed : List (MethodDraft host)} (h : (methods.map MethodDraft.name).Nodup) :
    declareIn target declaration methods = .ok changed ↔
      (∀ method ∈ methods, method.name = target → method.Takes declaration) ∧
        (methods.map fun method => method.extendOn target declaration) = changed := by
  induction methods generalizing changed with
  | nil => simp [declareIn]
  | cons method methods ih =>
      obtain ⟨hnew, hrest⟩ := List.nodup_cons.1 h
      rw [List.forall_mem_cons, List.map_cons]
      by_cases htarget : method.name = target
      · have hother : ∀ other ∈ methods, other.name ≠ target := by
          intro other hmem hname
          exact hnew (htarget.trans hname.symm ▸ List.mem_map_of_mem hmem)
        have hkept : (methods.map fun method => method.extendOn target declaration) = methods := by
          rw [List.map_congr_left fun other hmem =>
            MethodDraft.extendOn_of_ne (hother other hmem) declaration, List.map_id']
        have htaken : ∀ other ∈ methods, other.name = target → other.Takes declaration :=
          fun other hmem hname => absurd hname (hother other hmem)
        rw [declareIn_cons_of_eq htarget, hkept, MethodDraft.extendOn_of_eq htarget]
        constructor
        · rintro ⟨next, hdeclare, rfl⟩
          obtain ⟨htakes, rfl⟩ := MethodDraft.declare_eq_ok_iff.1 hdeclare
          exact ⟨⟨fun _ => htakes, htaken⟩, rfl⟩
        · rintro ⟨⟨htakes, -⟩, rfl⟩
          exact ⟨_, MethodDraft.declare_eq_ok_iff.2 ⟨htakes htarget, rfl⟩, rfl⟩
      · rw [declareIn_cons_of_ne htarget, MethodDraft.extendOn_of_ne htarget]
        constructor
        · rintro ⟨rest, hrestIn, rfl⟩
          obtain ⟨htakes, rfl⟩ := (ih hrest).1 hrestIn
          exact ⟨⟨fun hname => absurd hname htarget, htakes⟩, rfl⟩
        · rintro ⟨⟨-, htakes⟩, rfl⟩
          exact ⟨_, (ih hrest).2 ⟨htakes, rfl⟩, rfl⟩

/-- The methods of the finished service may take a declaration when their drafts do. -/
theorem forall_takes_iff {target : String} {declaration : Declaration} :
    (∀ method ∈ draft.methods, method.name = target → method.Takes declaration) ↔
      (DraftStep.declaration target declaration).Permitted draft.finish := by
  cases declaration <;>
    simp [MethodDraft.Takes, DraftStep.Permitted, finish, MethodDraft.finish]

/-- A step on a draft with distinct names is rejected unless the finished service permits it. -/
theorem step_eq_ok_iff (h : draft.Named) :
    draft.step step = .ok next ↔ step.Permitted draft.finish ∧ draft.add step = next := by
  cases step with
  | method name handler =>
      have hnames : draft.finish.methods.map Method.name = draft.methods.map MethodDraft.name :=
        List.map_map
      rw [DraftStep.Permitted, hnames, and_assoc]
      exact addMethod_eq_ok_iff
  | declaration target declaration =>
      refine declare_eq_ok_iff.trans ?_
      rw [← forall_takes_iff]
      simp only [declareIn_eq_ok_iff h.methods.nodup, and_assoc, exists_and_left, exists_eq_left']
      rfl
  | subservice name accessor service =>
      rw [DraftStep.Permitted, and_assoc]
      exact addSubservice_eq_ok_iff

theorem record_of_permitted (h : draft.Named) (hstep : step.Permitted draft.finish) :
    draft.record step = draft.add step := by
  rw [record, (step_eq_ok_iff h).2 ⟨hstep, rfl⟩]

theorem record_of_not_permitted (h : draft.Named) (hstep : ¬ step.Permitted draft.finish) :
    draft.record step = draft := by
  cases hresult : draft.step step with
  | ok next => exact absurd ((step_eq_ok_iff h).1 hresult).1 hstep
  | error error => rw [record, hresult]

end Step

section Contents

variable {draft : ServiceDraft host}

/-- Without the steps that are rejected a draft comes to the same. -/
theorem run_accepted (draft : ServiceDraft host) (steps : List (DraftStep host)) :
    draft.run (draft.accepted steps) = draft.run steps := by
  induction steps generalizing draft with
  | nil => rfl
  | cons step steps ih =>
      cases hstep : draft.step step with
      | ok next => simpa [accepted, run, record, hstep] using ih next
      | error error => simpa [accepted, run, record, hstep] using ih draft

/-- The steps that are not rejected are added one by one. -/
theorem run_eq_foldl_add (h : draft.Named) (steps : List (DraftStep host)) :
    draft.run steps = (draft.accepted steps).foldl add draft := by
  induction steps generalizing draft with
  | nil => rfl
  | cons step steps ih =>
      cases hstep : draft.step step with
      | ok next =>
          obtain ⟨-, hadd⟩ := (step_eq_ok_iff h).1 hstep
          simpa [accepted, run, record, hstep, hadd] using ih (h.step hstep)
      | error error => simpa [accepted, run, record, hstep] using ih h

/-- What becomes of a draft with more steps, none of which is rejected: the declarations among them
are made on the methods before them, in order. -/
theorem finish_foldl_add (log : List (DraftStep host)) :
    (log.foldl add draft).finish =
      { name := draft.name
        serviceType := draft.serviceType
        methods := draft.methods.map (fun method =>
          (method.extend (DraftStep.declarationsOn method.name log)).finish) ++
            DraftStep.methodsOf log
        subservices := draft.subservices ++ DraftStep.subservicesOf log } := by
  induction log generalizing draft with
  | nil =>
      simp [finish, DraftStep.methodsOf, DraftStep.subservicesOf, MethodDraft.extend_nil]
  | cons step log ih =>
      rw [List.foldl_cons, ih]
      cases step with
      | method name handler =>
          have hname : (MethodDraft.start name handler).name = name := rfl
          simp [add, DraftStep.methodsOf, DraftStep.subservicesOf, hname,
            MethodDraft.finish_extend_start]
      | declaration target declaration =>
          simp only [add, DraftStep.methodsOf, DraftStep.subservicesOf, List.map_map,
            DraftStep.declarationsOn_declaration]
          congr 2
          refine List.map_congr_left fun method _ => ?_
          by_cases htarget : method.name = target
          · have hname : (method.extend [declaration]).name = target := htarget
            simp [htarget, hname, MethodDraft.extendOn_of_eq, MethodDraft.extend_extend]
          · simp [htarget, Ne.symm htarget, MethodDraft.extendOn_of_ne]
      | subservice name accessor service =>
          simp [add, DraftStep.methodsOf, DraftStep.subservicesOf]

/-- A finished service is made of the steps that were not rejected. -/
theorem finish_run_of_start {name : String} {serviceType : Option ServiceType}
    (h : start name serviceType = .ok draft) (steps : List (DraftStep host)) :
    (draft.run steps).finish =
      ⟨name, serviceType, DraftStep.methodsOf (draft.accepted steps),
        DraftStep.subservicesOf (draft.accepted steps)⟩ := by
  rw [run_eq_foldl_add (named_of_start h), finish_foldl_add]
  obtain ⟨-, rfl⟩ := start_eq_ok_iff.1 h
  rfl

/-- A step that is not rejected keeps the names tidy. -/
theorem tidy_add (h : draft.Named) (htidy : draft.finish.Tidy) {step : DraftStep host}
    (hstep : step.Permitted draft.finish) : (draft.add step).finish.Tidy := by
  have hnamed : (draft.add step).finish.Named :=
    Service.named_of_draft (h.step ((step_eq_ok_iff h).2 ⟨hstep, rfl⟩))
  cases step with
  | method name handler =>
      have hmethods : (draft.add (.method name handler)).finish.methods =
          draft.finish.methods ++ [(MethodDraft.start name handler).finish] :=
        List.map_append
      refine ⟨hnamed, ?_, htidy.subservices⟩
      rw [hmethods, List.forall_mem_append, List.forall_mem_singleton]
      exact ⟨htidy.methods, hstep.1.2, .nil, .nil⟩
  | declaration target declaration =>
      refine ⟨hnamed, ?_, htidy.subservices⟩
      intro method hmem
      obtain ⟨changed, hchanged, rfl⟩ := List.mem_map.1 hmem
      obtain ⟨old, hold, rfl⟩ := List.mem_map.1 hchanged
      have holdTidy : old.finish.Tidy := htidy.methods _ (List.mem_map_of_mem hold)
      by_cases htarget : old.name = target
      · rw [MethodDraft.extendOn_of_eq htarget]
        exact MethodDraft.tidy_extend holdTidy (forall_takes_iff.2 hstep old hold htarget)
      · rw [MethodDraft.extendOn_of_ne htarget]
        exact holdTidy
  | subservice name accessor service =>
      refine ⟨hnamed, htidy.methods, ?_⟩
      exact List.forall_mem_append.2 ⟨htidy.subservices, List.forall_mem_singleton.2 hstep.1.2⟩

/-- The names of a finished service are tidy. -/
theorem tidy_run_of_start {name : String} {serviceType : Option ServiceType}
    (h : start name serviceType = .ok draft) (steps : List (DraftStep host)) :
    (draft.run steps).finish.Tidy := by
  have hnamed := named_of_start h
  have hstart : draft.finish.Tidy := by
    obtain ⟨-, rfl⟩ := start_eq_ok_iff.1 h
    exact ⟨Service.named_of_draft hnamed, nofun, nofun⟩
  refine (run_induction (fun draft => draft.Named ∧ draft.finish.Tidy) ⟨hnamed, hstart⟩ steps ?_).2
  rintro before step - next ⟨hbefore, htidy⟩ hstep
  refine ⟨hbefore.step hstep, ?_⟩
  obtain ⟨hpermitted, rfl⟩ := (step_eq_ok_iff hbefore).1 hstep
  exact tidy_add hbefore htidy hpermitted

end Contents

section Exchange

variable {draft other : ServiceDraft host} {first second step : DraftStep host}

/-- `draft.Alike other` says that the two have the same methods and sub-services, in whichever
order they were added. -/
structure Alike (draft other : ServiceDraft host) : Prop where
  name_eq : draft.name = other.name
  serviceType_eq : draft.serviceType = other.serviceType
  methods : draft.methods.Perm other.methods
  subservices : draft.subservices.Perm other.subservices

theorem Alike.refl (draft : ServiceDraft host) : draft.Alike draft := ⟨rfl, rfl, .rfl, .rfl⟩

theorem Alike.add (h : draft.Alike other) (step : DraftStep host) :
    (draft.add step).Alike (other.add step) := by
  cases step with
  | method name handler =>
      exact ⟨h.name_eq, h.serviceType_eq, h.methods.append_right _, h.subservices⟩
  | declaration target declaration =>
      exact ⟨h.name_eq, h.serviceType_eq, h.methods.map _, h.subservices⟩
  | subservice name accessor service =>
      exact ⟨h.name_eq, h.serviceType_eq, h.methods, h.subservices.append_right _⟩

/-- Whether a step is permitted depends on what has the name that the step is about. -/
theorem permitted_congr {service another : Service host}
    (hmethods : ∀ method, step.subject = .method method.name →
      (method ∈ service.methods ↔ method ∈ another.methods))
    (hsubservices : ∀ subservice, step.subject = .subservice subservice.name →
      (subservice ∈ service.subservices ↔ subservice ∈ another.subservices)) :
    step.Permitted service ↔ step.Permitted another := by
  cases step with
  | method name handler =>
      have hnames : name ∈ service.methods.map Method.name ↔
          name ∈ another.methods.map Method.name := by
        simp only [List.mem_map]
        refine exists_congr fun method => and_congr_left fun hname => ?_
        exact hmethods method (congrArg _ hname.symm)
      rw [DraftStep.Permitted, DraftStep.Permitted, hnames]
  | declaration target declaration =>
      have htargets : ∀ Property : Method host → Prop,
          (∀ method ∈ service.methods, method.name = target → Property method) ↔
            ∀ method ∈ another.methods, method.name = target → Property method := by
        intro Property
        refine forall_congr' fun method => ?_
        constructor
        · intro h hmem hname
          exact h ((hmethods method (congrArg _ hname.symm)).2 hmem) hname
        · intro h hmem hname
          exact h ((hmethods method (congrArg _ hname.symm)).1 hmem) hname
      cases declaration with
      | parameter name type way => exact htargets _
      | generic name => exact htargets _
      | returns type => exact .rfl
      | remoting kind => exact .rfl
  | subservice name accessor added =>
      have hnames : name ∈ service.subservices.map Subservice.name ↔
          name ∈ another.subservices.map Subservice.name := by
        simp only [List.mem_map]
        refine exists_congr fun subservice => and_congr_left fun hname => ?_
        exact hsubservices subservice (congrArg _ hname.symm)
      rw [DraftStep.Permitted, DraftStep.Permitted, hnames]

/-- A step leaves alone the methods that it is not about. -/
theorem mem_methods_add_iff {method : Method host} (h : step.subject ≠ .method method.name) :
    method ∈ (draft.add step).finish.methods ↔ method ∈ draft.finish.methods := by
  cases step with
  | method name handler =>
      have hother : method ≠ (MethodDraft.start name handler).finish := by
        rintro rfl
        exact h rfl
      simp [add, finish, hother]
  | declaration target declaration =>
      simp only [add, finish, List.mem_map, exists_exists_and_eq_and]
      refine exists_congr fun old => and_congr_right fun _ => ?_
      by_cases htarget : old.name = target
      · have hname : (old.extendOn target declaration).name = target :=
          (MethodDraft.extendOn_name ..).trans htarget
        constructor
        · rintro rfl
          exact absurd (congrArg DraftStep.Subject.method hname.symm) h
        · rintro rfl
          exact absurd (congrArg DraftStep.Subject.method htarget.symm) h
      · rw [MethodDraft.extendOn_of_ne htarget]
  | subservice name accessor service => exact .rfl

/-- A step leaves alone the sub-services that it is not about. -/
theorem mem_subservices_add_iff {subservice : Subservice host}
    (h : step.subject ≠ .subservice subservice.name) :
    subservice ∈ (draft.add step).finish.subservices ↔ subservice ∈ draft.finish.subservices := by
  cases step with
  | method name handler => exact .rfl
  | declaration target declaration => exact .rfl
  | subservice name accessor service =>
      have hother : subservice ≠ ⟨name, accessor, service⟩ := by
        rintro rfl
        exact h rfl
      simp [add, finish, hother]

theorem permitted_add_iff (h : first.subject ≠ second.subject) :
    second.Permitted (draft.add first).finish ↔ second.Permitted draft.finish :=
  permitted_congr (fun _ hsubject => mem_methods_add_iff (hsubject ▸ h))
    fun _ hsubject => mem_subservices_add_iff (hsubject ▸ h)

theorem Alike.permitted_iff (h : draft.Alike other) :
    step.Permitted draft.finish ↔ step.Permitted other.finish :=
  permitted_congr (fun _ _ => (h.methods.map _).mem_iff) fun _ _ => h.subservices.mem_iff

theorem add_method_add_declaration {name target : String} (h : name ≠ target)
    (handler : Handler host) (declaration : Declaration) :
    (draft.add (.method name handler)).add (.declaration target declaration) =
      (draft.add (.declaration target declaration)).add (.method name handler) := by
  have hname : (MethodDraft.start name handler).name ≠ target := h
  simp [add, MethodDraft.extendOn_of_ne hname]

/-- Steps about different names may be added in either order. -/
theorem alike_add_add (h : first.subject ≠ second.subject) :
    ((draft.add first).add second).Alike ((draft.add second).add first) := by
  cases first with
  | method name handler =>
      cases second with
      | method otherName otherHandler =>
          refine ⟨rfl, rfl, ?_, .rfl⟩
          simpa [add] using List.Perm.append_left _ (.swap _ _ _)
      | declaration target declaration =>
          have hname : name ≠ target := fun hname => h (congrArg DraftStep.Subject.method hname)
          rw [add_method_add_declaration hname]
          exact .refl _
      | subservice otherName accessor service => exact .refl _
  | declaration target declaration =>
      cases second with
      | method name handler =>
          have hname : name ≠ target := fun hname => h (congrArg DraftStep.Subject.method hname.symm)
          rw [add_method_add_declaration hname]
          exact .refl _
      | declaration otherTarget otherDeclaration =>
          refine ⟨rfl, rfl, .of_eq ?_, .rfl⟩
          have htargets : target ≠ otherTarget :=
            fun htarget => h (congrArg DraftStep.Subject.method htarget)
          simp only [add, List.map_map]
          refine List.map_congr_left fun method _ => ?_
          exact MethodDraft.extendOn_comm htargets method declaration otherDeclaration
      | subservice name accessor service => exact .refl _
  | subservice name accessor service =>
      cases second with
      | method otherName handler => exact .refl _
      | declaration target declaration => exact .refl _
      | subservice otherName otherAccessor otherService =>
          refine ⟨rfl, rfl, .rfl, ?_⟩
          simpa [add] using List.Perm.append_left _ (.swap _ _ _)

theorem Alike.record (h : draft.Alike other) (hdraft : draft.Named) (hother : other.Named)
    (step : DraftStep host) : (draft.record step).Alike (other.record step) := by
  by_cases hstep : step.Permitted draft.finish
  · rw [record_of_permitted hdraft hstep, record_of_permitted hother (h.permitted_iff.1 hstep)]
    exact h.add step
  · rw [record_of_not_permitted hdraft hstep,
      record_of_not_permitted hother (mt h.permitted_iff.2 hstep)]
    exact h

theorem Alike.run (h : draft.Alike other) (hdraft : draft.Named) (hother : other.Named)
    (steps : List (DraftStep host)) : (draft.run steps).Alike (other.run steps) := by
  induction steps generalizing draft other with
  | nil => exact h
  | cons step steps ih =>
      exact ih (h.record hdraft hother step) (hdraft.run [step]) (hother.run [step])

theorem permitted_record_iff (hdraft : draft.Named) (h : first.subject ≠ second.subject) :
    second.Permitted (draft.record first).finish ↔ second.Permitted draft.finish := by
  by_cases hfirst : first.Permitted draft.finish
  · rw [record_of_permitted hdraft hfirst, permitted_add_iff h]
  · rw [record_of_not_permitted hdraft hfirst]

/-- Steps about different names may be exchanged, whether or not they are rejected. -/
theorem alike_record_record (hdraft : draft.Named) (h : first.subject ≠ second.subject) :
    ((draft.record first).record second).Alike ((draft.record second).record first) := by
  have hafterFirst : (draft.record first).Named := hdraft.run [first]
  have hafterSecond : (draft.record second).Named := hdraft.run [second]
  have hsecondLast := permitted_record_iff hdraft h
  have hfirstLast := permitted_record_iff hdraft h.symm
  by_cases hfirst : first.Permitted draft.finish
  · rw [record_of_permitted hafterSecond (hfirstLast.2 hfirst)]
    by_cases hsecond : second.Permitted draft.finish
    · rw [record_of_permitted hafterFirst (hsecondLast.2 hsecond),
        record_of_permitted hdraft hfirst, record_of_permitted hdraft hsecond]
      exact alike_add_add h
    · rw [record_of_not_permitted hafterFirst (mt hsecondLast.1 hsecond),
        record_of_permitted hdraft hfirst, record_of_not_permitted hdraft hsecond]
      exact .refl _
  · rw [record_of_not_permitted hafterSecond (mt hfirstLast.1 hfirst),
      record_of_not_permitted hdraft hfirst]
    exact .refl _

/-- Drafts with the same contents are finished to services with the same contents. -/
theorem Alike.finish (h : draft.Alike other) (hdraft : draft.Named) :
    draft.finish.Same other.finish where
  name_eq := h.name_eq
  serviceType_eq := h.serviceType_eq
  methods := h.methods.map _
  subservices := h.subservices
  method?_eq _ := find?_eq_of_perm (h.methods.map _) (Service.named_of_draft hdraft).methods.nodup
  subservice?_eq _ := find?_eq_of_perm h.subservices hdraft.subservices.nodup

end Exchange

/-- A step on a draft is rejected exactly when the service that the draft describes does not permit
it, and then the draft goes on as if it had not been made. The finished service is made of the other
steps, with each declaration on the method that it is for, its names are tidy, and it has the same
contents when two neighbouring steps about different names are exchanged. -/
theorem run_records {name : String} {serviceType : Option ServiceType} {draft : ServiceDraft host}
    (h : start name serviceType = .ok draft) (steps : List (DraftStep host)) :
    (∀ before step after, steps = before ++ step :: after →
      ((∃ next, (draft.run before).step step = .ok next) ↔
        step.Permitted (draft.run before).finish) ∧
      ((∃ error, (draft.run before).step step = .error error) →
        draft.run steps = draft.run (before ++ after))) ∧
    draft.run (draft.accepted steps) = draft.run steps ∧
    (draft.run steps).finish = ⟨name, serviceType, DraftStep.methodsOf (draft.accepted steps),
      DraftStep.subservicesOf (draft.accepted steps)⟩ ∧
    (draft.run steps).finish.Tidy ∧
    ∀ before first second after, steps = before ++ first :: second :: after →
      first.subject ≠ second.subject →
      (draft.run steps).finish.Same (draft.run (before ++ second :: first :: after)).finish := by
  have hnamed := named_of_start h
  refine ⟨?_, run_accepted draft steps, finish_run_of_start h steps, tidy_run_of_start h steps, ?_⟩
  · rintro before step after rfl
    refine ⟨?_, ?_⟩
    · simp only [step_eq_ok_iff (hnamed.run before), exists_and_left, exists_eq', and_true]
    · rintro ⟨error, herror⟩
      have hrecord : (draft.run before).record step = draft.run before := by rw [record, herror]
      have hrun : draft.run (before ++ step :: after) =
          ((draft.run before).record step).run after := by
        simp [run]
      rw [hrun, hrecord, run, run, run, List.foldl_append]
  · rintro before first second after rfl hsubject
    have hbefore := hnamed.run before
    have hexchanged := (alike_record_record hbefore hsubject).run
      ((hbefore.run [first]).run [second]) ((hbefore.run [second]).run [first]) after
    have hrun : ∀ first second, draft.run (before ++ first :: second :: after) =
        (((draft.run before).record first).record second).run after := by
      intro first second
      simp [run]
    rw [hrun, hrun]
    exact hexchanged.finish (((hbefore.run [first]).run [second]).run after)

/-- A method that does nothing. -/
def wait : Handler (.single Unit ⟨"Desk"⟩) := fun _ => pure .void

/-- A draft without methods and sub-services. -/
def desk : ServiceDraft (.single Unit ⟨"Desk"⟩) := ⟨"Desk", none, [], []⟩

/-- A parameter that is declared twice, a method of which the remoting is declared, and one method
for each remoting that is inferred. -/
def deskSteps : List (DraftStep (.single Unit ⟨"Desk"⟩)) :=
  [.method "Call" wait, .declaration "Call" (.parameter "number" (.base "u32") .val),
    .declaration "Call" (.parameter "number" (.base "u64") .ref),
    .declaration "Call" (.returns (.pending .void)), .method "Ring" wait,
    .declaration "Ring" (.remoting .asyncVoid), .declaration "Call" (.generic "T"),
    .method "Wait" wait, .declaration "Wait" (.returns (.pending (.base "u8"))),
    .method "Read" wait, .declaration "Read" (.returns (.base "u8")), .method "Stop" wait]

/-- The second declaration of the parameter leaves no trace, and the sixth and the seventh step may
be exchanged. -/
theorem run_records_desk :
    desk.run deskSteps = desk.run (deskSteps.eraseIdx 2) ∧
    (desk.run deskSteps).finish = ⟨"Desk", none,
      [⟨"Call", [⟨"number", .base "u32", .val⟩], .pending .void, ["T"], .asyncVoid, wait⟩,
        ⟨"Ring", [], .void, [], .asyncVoid, wait⟩,
        ⟨"Wait", [], .pending (.base "u8"), [], .asyncWithResult, wait⟩,
        ⟨"Read", [], .base "u8", [], .direct, wait⟩, ⟨"Stop", [], .void, [], .direct, wait⟩], []⟩ ∧
    (desk.run deskSteps).finish.Tidy ∧
    (desk.run deskSteps).finish.Same (desk.run
      (deskSteps.take 5 ++ [.declaration "Call" (.generic "T"),
        .declaration "Ring" (.remoting .asyncVoid)] ++ deskSteps.drop 7)).finish := by
  have hstart : start "Desk" none = .ok desk := rfl
  obtain ⟨hrejected, -, hfinish, htidy, hexchange⟩ := run_records hstart deskSteps
  refine ⟨?_, hfinish, htidy, hexchange (deskSteps.take 5) _ _ (deskSteps.drop 7) rfl (by decide)⟩
  exact (hrejected (deskSteps.take 2) _ (deskSteps.drop 3) rfl).2 ⟨.duplicateParameter "number", rfl⟩

end ServiceDraft

end Switchboard
