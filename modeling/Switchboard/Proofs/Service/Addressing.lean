import Switchboard.Proofs.Invoker.Acceptance
import Switchboard.Proofs.Service.History
import Switchboard.Proofs.ServicePath.Text

/-!
# The methods that paths name

`Service.Chain` leads from a service to one below it, and `Service.Addresses` says which method at
the end of a chain has the names of a path. The main result, `Service.drafted_methods_addressable`,
says that in a drafted service every method has a path, which names no other one and is compiled
into calls of it, and that any other path fails at its first segment that names nothing.
-/

namespace Switchboard

variable {host : Host}

namespace Service

/-- `service.Chain chain node` says that the sub-services `chain` lead from `service` down to
`node`, each to the next. -/
inductive Chain : Service host → List (Subservice host) → Service host → Prop where
  | here (node) : Chain node [] node
  | through (node subservice chain target) : subservice ∈ node.subservices →
      Chain subservice.service chain target → Chain node (subservice :: chain) target

/-- `service.Addresses path chain node method` says that `path` holds the name of the service, the
names along `chain`, which leads down to `node`, and the name of `method`, which `node` has. -/
structure Addresses (service : Service host) (path : ServicePath) (chain : List (Subservice host))
    (node : Service host) (method : Method host) : Prop where
  service_eq : path.service = service.name
  leads : service.Chain chain node
  subservices_eq : path.subservices = chain.map Subservice.name
  mem : method ∈ node.methods
  method_eq : path.method = method.name

/-- `service.Unresolved path segment kind` says that `segment` is the first segment of `path` that
names nothing: the service at the root, a sub-service of the node that the segments before lead to,
or a method of the node at the end. -/
inductive Unresolved (service : Service host) (path : ServicePath) : String → SegmentKind → Prop where
  | service : path.service ≠ service.name → Unresolved service path path.service .service
  | subservice (chain node name after) : path.service = service.name →
      service.Chain chain node → path.subservices = chain.map Subservice.name ++ name :: after →
      (∀ subservice ∈ node.subservices, subservice.name ≠ name) →
      Unresolved service path name .subservice
  | method (chain node) : path.service = service.name → service.Chain chain node →
      path.subservices = chain.map Subservice.name →
      (∀ method ∈ node.methods, method.name ≠ path.method) →
      Unresolved service path path.method .method

section Chain

variable {service node other : Service host} {chain others : List (Subservice host)}

theorem Chain.drafted (h : service.Chain chain node) (hdrafted : service.Drafted) :
    node.Drafted := by
  induction h with
  | here node => exact hdrafted
  | through node subservice chain target hmem _ ih => exact ih (hdrafted.subservice hmem)

/-- The names along a chain can stand in a path. -/
theorem Chain.isSegment (h : service.Chain chain node) (hdrafted : service.Drafted) :
    ∀ name ∈ chain.map Subservice.name, IsSegment name := by
  induction h with
  | here node => exact nofun
  | through node subservice chain target hmem _ ih =>
      have hname := hdrafted.named.subservices.isSegment _ (List.mem_map_of_mem hmem)
      exact List.forall_mem_cons.2 ⟨hname, ih (hdrafted.subservice hmem)⟩

/-- Names lead down one chain at most. -/
theorem Chain.unique (h : service.Chain chain node) (hother : service.Chain others other)
    (hdrafted : service.Drafted) (hnames : chain.map Subservice.name = others.map Subservice.name) :
    chain = others ∧ node = other := by
  induction h generalizing others with
  | here node =>
      obtain rfl := List.map_eq_nil_iff.1 hnames.symm
      cases hother
      exact ⟨rfl, rfl⟩
  | through node subservice chain target hmem _ ih =>
      cases hother with
      | here => exact nomatch hnames
      | through _ second others _ hsecond hrest =>
          obtain ⟨hname, htail⟩ := List.cons.inj hnames
          obtain rfl := List.inj_on_of_nodup_map hdrafted.named.subservices.nodup hmem hsecond hname
          obtain ⟨rfl, rfl⟩ := ih hrest (hdrafted.subservice hmem) htail
          exact ⟨rfl, rfl⟩

/-- The names along a chain lead through its accessors. -/
theorem reaches_of_chain (h : service.Chain chain node) (hdrafted : service.Drafted) :
    service.Reaches (chain.map Subservice.name) (chain.map Subservice.accessor) node := by
  induction h with
  | here node => exact .here node
  | through node subservice chain target hmem _ ih =>
      have hfound : node.subservice? subservice.name = some subservice :=
        (find?_eq_some_iff_of_nodup hdrafted.named.subservices.nodup).2 ⟨hmem, rfl⟩
      exact .through _ _ _ _ _ _ hfound (ih (hdrafted.subservice hmem))

theorem exists_chain_of_reaches {names : List String} {accessors : List (Accessor host)}
    (h : service.Reaches names accessors node) :
    ∃ chain, service.Chain chain node ∧ names = chain.map Subservice.name ∧
      accessors = chain.map Subservice.accessor := by
  induction h with
  | here node => exact ⟨[], .here node, rfl, rfl⟩
  | through name names node subservice accessors target hfound _ ih =>
      obtain ⟨chain, hchain, rfl, rfl⟩ := ih
      have hname : subservice.name = name := by simpa using List.find?_some hfound
      exact ⟨subservice :: chain,
        .through _ _ _ _ (List.mem_of_find?_eq_some hfound) hchain, by rw [← hname]; rfl, rfl⟩

end Chain

section Path

variable {service node : Service host} {path : ServicePath} {chain : List (Subservice host)}
  {method : Method host}

theorem Addresses.unique {others : List (Subservice host)} {other : Service host}
    {another : Method host} (h : service.Addresses path chain node method)
    (hother : service.Addresses path others other another) (hdrafted : service.Drafted) :
    chain = others ∧ node = other ∧ method = another := by
  obtain ⟨rfl, rfl⟩ := h.leads.unique hother.leads hdrafted
    (h.subservices_eq.symm.trans hother.subservices_eq)
  exact ⟨rfl, rfl, List.inj_on_of_nodup_map (h.leads.drafted hdrafted).named.methods.nodup h.mem
    hother.mem (h.method_eq.symm.trans hother.method_eq)⟩

/-- The names along a chain and the name of a method at its end are the segments of a path. -/
theorem exists_path_of_chain (h : service.Chain chain node) (hmem : method ∈ node.methods)
    (hdrafted : service.Drafted) :
    ∃ path : ServicePath,
      path.segments = service.name :: (chain.map Subservice.name ++ [method.name]) ∧
        service.Addresses path chain node method := by
  have hnode := (h.drafted hdrafted).named
  have hsegments : ∀ segment ∈ service.name :: (chain.map Subservice.name ++ [method.name]),
      IsSegment segment := by
    rw [List.forall_mem_cons, List.forall_mem_append, List.forall_mem_singleton]
    exact ⟨hdrafted.named.name, h.isSegment hdrafted,
      hnode.methods.isSegment _ (List.mem_map_of_mem hmem)⟩
  exact ⟨⟨service.name, chain.map Subservice.name, method.name, hsegments⟩, rfl, rfl, h, rfl, hmem,
    rfl⟩

theorem locates_of_addresses (h : service.Addresses path chain node method)
    (hdrafted : service.Drafted) :
    service.Locates path (chain.map Subservice.accessor) method := by
  refine ⟨h.service_eq, node, h.subservices_eq ▸ reaches_of_chain h.leads hdrafted, ?_⟩
  exact (find?_eq_some_iff_of_nodup (h.leads.drafted hdrafted).named.methods.nodup).2
    ⟨h.mem, h.method_eq.symm⟩

/-- A path that is found names a method at the end of a chain. -/
theorem exists_addresses_of_locates {accessors : List (Accessor host)}
    (h : service.Locates path accessors method) :
    ∃ chain node, service.Addresses path chain node method ∧
      accessors = chain.map Subservice.accessor := by
  obtain ⟨hservice, node, hreaches, hmethod⟩ := h
  obtain ⟨chain, hchain, hnames, haccessors⟩ := exists_chain_of_reaches hreaches
  have hname : method.name = path.method := by simpa using List.find?_some hmethod
  exact ⟨chain, node, ⟨hservice, hchain, hnames, List.mem_of_find?_eq_some hmethod, hname.symm⟩,
    haccessors⟩

/-- A path that names no method has a first segment that names nothing. -/
theorem exists_unresolved (h : ∀ chain node method, ¬ service.Addresses path chain node method) :
    ∃ segment kind, service.Unresolved path segment kind := by
  have hspec := locate_spec service path [] fun _ => .error (.notRegistered .void)
  cases hlocate : service.locate path with
  | ok found =>
      rw [hlocate] at hspec
      obtain ⟨chain, node, haddresses, -⟩ := exists_addresses_of_locates hspec
      exact absurd haddresses (h chain node found.2)
  | error error =>
      rw [hlocate] at hspec
      cases hspec with
      | service hservice => exact ⟨_, _, .service hservice⟩
      | subservice before name after accessors node hservice hnames hreaches hmissing =>
          obtain ⟨chain, hchain, rfl, -⟩ := exists_chain_of_reaches hreaches
          exact ⟨_, _, .subservice chain node name after hservice hchain hnames
            (by simpa using List.find?_eq_none.1 hmissing)⟩
      | method accessors node hservice hreaches hmissing =>
          obtain ⟨chain, hchain, hnames, -⟩ := exists_chain_of_reaches hreaches
          exact ⟨_, _, .method chain node hservice hchain hnames
            (by simpa using List.find?_eq_none.1 hmissing)⟩
      | signature accessors method error hlocates _ =>
          obtain ⟨chain, node, haddresses, -⟩ := exists_addresses_of_locates hlocates
          exact absurd haddresses (h chain node method)

/-- What names nothing is the first fault of the path. -/
theorem firstFault_of_unresolved {segment : String} {kind : SegmentKind}
    (h : service.Unresolved path segment kind) (hdrafted : service.Drafted)
    (generics : List TypeExpr) (codecOf : TypeExpr → Except LookupError ValueCodec) :
    service.FirstFault path generics codecOf (.invalidPath path.display segment kind) := by
  cases h with
  | service hservice => exact .service hservice
  | subservice chain node name after hservice hchain hnames hmissing =>
      exact .subservice _ _ after _ node hservice hnames (reaches_of_chain hchain hdrafted)
        (List.find?_eq_none.2 (by simpa using hmissing))
  | method chain node hservice hchain hnames hmissing =>
      exact .method _ node hservice (hnames ▸ reaches_of_chain hchain hdrafted)
        (List.find?_eq_none.2 (by simpa using hmissing))

/-- A first fault is what the compilation fails with. -/
theorem compile_of_firstFault {catalog : Catalog} {registry : Registry}
    (hregistry : registry.Caches catalog) {generics : List TypeExpr} {error : CompileError}
    (h : service.FirstFault path generics catalog.resolve error) :
    (service.compile path generics registry).1.value = .error error := by
  have hspec := (service.compile_spec hregistry path generics).2
  cases hvalue : (service.compile path generics registry).1.value with
  | ok invoker =>
      rw [hvalue] at hspec
      obtain ⟨accessors, method, hcompiles⟩ := hspec
      exact absurd hcompiles.signature.accepts (h.not_accepts hcompiles.locates)
  | error other =>
      rw [hvalue] at hspec
      rw [h.unique hspec]

/-- What a compilation makes of a method that was found: calls of it, or its first fault. -/
theorem compile_of_locates {catalog : Catalog} {registry : Registry}
    (hregistry : registry.Caches catalog) {accessors : List (Accessor host)}
    (h : service.Locates path accessors method) (generics : List TypeExpr) :
    match (service.compile path generics registry).1.value with
    | .ok invoker => invoker.navigation = accessors ∧ invoker.handler = method.handler
    | .error error => (method.faults generics catalog.resolve).head? = some error := by
  have hspec := (service.compile_spec hregistry path generics).2
  cases hvalue : (service.compile path generics registry).1.value with
  | ok invoker =>
      rw [hvalue] at hspec
      obtain ⟨_, _, hcompiles⟩ := hspec
      obtain ⟨rfl, rfl⟩ := h.unique hcompiles.locates
      exact ⟨hcompiles.navigation_eq, hcompiles.handler_eq⟩
  | error error =>
      rw [hvalue] at hspec
      have hfault := hspec.spec
      rw [locate_of_locates h] at hfault
      exact hfault

end Path

end Service

/-- Nothing that is wrong with a method is wrong with its path. -/
theorem Method.faults_ne_invalidPath {method : Method host} {generics : List TypeExpr}
    {codecOf : TypeExpr → Except LookupError ValueCodec} {error : CompileError}
    (h : error ∈ method.faults generics codecOf) (text segment : String) (kind : SegmentKind) :
    error ≠ .invalidPath text segment kind := by
  rintro rfl
  have hunbound : ∀ bindings type,
      .invalidPath text segment kind ∉ unboundFaults method.name bindings type := by
    intro bindings type hmem
    simp [unboundFaults] at hmem
  have hcodec : ∀ type, .invalidPath text segment kind ∉ codecFaults method.name codecOf type := by
    intro type hmem
    unfold codecFaults at hmem
    cases hcodecOf : codecOf type <;> simp [hcodecOf] at hmem
  simp [faults, Parameter.faults, hunbound, hcodec] at h

namespace Service

/-- In a drafted service, on a registry after any steps, every method has a path, which is read back
from its text, and compiling it gives calls of this method through the accessors on the way, or
fails with the first fault of the method. No two methods have a path in common, and a path that
names no method fails at its first segment that names nothing. -/
theorem drafted_methods_addressable (steps : List Registry.Step) (service : Service host)
    (hdrafted : service.Drafted) :
    let registry := Registry.run steps .empty
    (∀ chain node method, service.Chain chain node → method ∈ node.methods →
      ∃ path, ServicePath.ofSegments
          (service.name :: (chain.map Subservice.name ++ [method.name])) = .ok path ∧
        ServicePath.parse path.display = .ok path ∧ service.Addresses path chain node method ∧
        ∀ generics, match (service.compile path generics registry).1.value with
          | .ok invoker => invoker.navigation = chain.map Subservice.accessor ∧
              invoker.handler = method.handler
          | .error error => (method.faults generics registry.codecOf).head? = some error ∧
              ∀ text segment kind, error ≠ .invalidPath text segment kind) ∧
    (∀ path chain node method others other another, service.Addresses path chain node method →
      service.Addresses path others other another →
      chain = others ∧ node = other ∧ method = another) ∧
    ∀ path, (∀ chain node method, ¬ service.Addresses path chain node method) →
      ∃ segment kind, service.Unresolved path segment kind ∧
        ∀ generics, (service.compile path generics registry).1.value =
          .error (.invalidPath path.display segment kind) := by
  intro registry
  have hregistry := Registry.run_caches steps
  have hcodecs : registry.codecOf = (Catalog.of (Registry.registered steps)).resolve :=
    funext hregistry.codecOf_eq
  refine ⟨?_, ?_, ?_⟩
  · intro chain node method hchain hmem
    obtain ⟨path, hsegments, haddresses⟩ := exists_path_of_chain hchain hmem hdrafted
    refine ⟨path, hsegments ▸ path.ofSegments_segments, path.parse_display, haddresses, ?_⟩
    intro generics
    have hcompile := compile_of_locates hregistry (locates_of_addresses haddresses hdrafted)
      generics
    rw [hcodecs]
    cases hvalue : (service.compile path generics registry).1.value with
    | ok invoker =>
        rw [hvalue] at hcompile
        exact hcompile
    | error error =>
        rw [hvalue] at hcompile
        exact ⟨hcompile, Method.faults_ne_invalidPath (List.mem_of_mem_head? hcompile)⟩
  · intro path chain node method others other another h hother
    exact h.unique hother hdrafted
  · intro path hnone
    obtain ⟨segment, kind, hunresolved⟩ := exists_unresolved hnone
    refine ⟨segment, kind, hunresolved, ?_⟩
    intro generics
    exact compile_of_firstFault hregistry (firstFault_of_unresolved hunresolved hdrafted _ _)

/-- A method that does nothing. -/
def idle : Handler (.single Unit ⟨"House"⟩) := fun _ => pure .void

/-- The way to the only object. -/
def inside : Accessor (.single Unit ⟨"House"⟩) := fun object => pure object

/-- A service with one method. -/
def hall : Service (.single Unit ⟨"House"⟩) :=
  (ServiceDraft.run ⟨"Hall", none, [], []⟩ [.method "Door" idle]).finish

/-- A service whose method and sub-service have the same name. The last two steps of its draft are
rejected, since one name is taken and the other cannot stand in a path. -/
def house : Service (.single Unit ⟨"House"⟩) :=
  (ServiceDraft.run ⟨"House", none, [], []⟩ [.method "Door" idle, .subservice "Door" inside hall,
    .method "Door" idle, .subservice "Back/Door" inside hall]).finish

/-- The path to the method of the sub-service. -/
def housePath : ServicePath := ⟨"House", ["Door"], "Door", by decide⟩

/-- A path through a sub-service that does not exist. -/
def gatePath : ServicePath := ⟨"House", ["Gate"], "Door", by decide⟩

theorem house_drafted : house.Drafted := by
  have hhall : hall.Drafted := .finish "Hall" none _ _ rfl (by simp)
  refine .finish "House" none _ _ rfl ?_
  intro name accessor service hmem
  have hservice : service = hall := by
    rcases (by simpa using hmem : _ ∨ _) with ⟨-, -, h⟩ | ⟨-, -, h⟩ <;> exact h
  exact hservice ▸ hhall

/-- The path of the sub-service's method is read back from its text, and leads through the accessor.
The other path fails at its second segment. -/
theorem drafted_methods_addressable_house :
    ServicePath.parse housePath.display = .ok housePath ∧
    (∃ invoker, (house.compile housePath [] .empty).1.value = .ok invoker ∧
      invoker.navigation = [inside]) ∧
    house.Unresolved gatePath "Gate" .subservice ∧
    (house.compile gatePath [] .empty).1.value =
      .error (.invalidPath "House/Gate/Door" "Gate" .subservice) := by
  obtain ⟨hnamed, -, hmissing⟩ := drafted_methods_addressable [] house house_drafted
  have hchain : house.Chain [⟨"Door", inside, hall⟩] hall :=
    .through _ _ _ _ List.mem_cons_self (.here hall)
  obtain ⟨path, hpath, hparse, -, hcompile⟩ := hnamed _ _ _ hchain List.mem_cons_self
  obtain rfl : housePath = path := Except.ok.inj hpath
  have hnone : ∀ chain node method, ¬ house.Addresses gatePath chain node method := by
    intro chain node method h
    have hnames := h.subservices_eq
    cases h.leads with
    | here => exact nomatch hnames
    | through _ subservice chain _ hmem _ =>
        obtain rfl : subservice = ⟨"Door", inside, hall⟩ := List.mem_singleton.1 hmem
        exact absurd (List.cons.inj hnames).1 (by decide)
  obtain ⟨segment, kind, hunresolved, herror⟩ := hmissing gatePath hnone
  have hfirst : (house.compile gatePath [] .empty).1.value =
      .error (.invalidPath gatePath.display "Gate" .subservice) := rfl
  obtain ⟨-, rfl, rfl⟩ :=
    CompileError.invalidPath.inj (Except.error.inj (hfirst.symm.trans (herror [])))
  exact ⟨hparse, ⟨_, rfl, (hcompile []).1⟩, hunresolved, herror []⟩

end Service

end Switchboard
