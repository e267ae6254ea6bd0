import Switchboard.Proofs.Action
import Switchboard.Proofs.Registry.Resolution

/-!
# The builds of one lookup

`Registry.walk` traverses a type without building anything: arguments before the type itself, from
left to right, past what the registry knows, and up to the first type without a codec. A lookup does
remember what it builds, so it builds each type of the walk once, where the walk comes to it first.
The main result, `Registry.find_builds`, says so for a registry that has built something already.
-/

namespace Switchboard

/-- The types that a traversal comes to, and the error that stops it, if there is one. -/
structure Walk where
  types : List TypeExpr
  error : Option LookupError

namespace Walk

/-- The traversal of what is known. -/
def done : Walk := ⟨[], none⟩

/-- A traversal that cannot go on. -/
def stopped (error : LookupError) : Walk := ⟨[], some error⟩

/-- One traversal after the other. There is nothing behind an error. -/
def andThen (first second : Walk) : Walk :=
  match first.error with
  | some _ => first
  | none => ⟨first.types ++ second.types, second.error⟩

theorem andThen_of_error {first : Walk} {error : LookupError} (h : first.error = some error)
    (second : Walk) : first.andThen second = first := by
  simp [andThen, h]

theorem andThen_of_ok {first : Walk} (h : first.error = none) (second : Walk) :
    first.andThen second = ⟨first.types ++ second.types, second.error⟩ := by
  simp [andThen, h]

theorem subset_andThen (first second : Walk) : first.types ⊆ (first.andThen second).types := by
  cases h : first.error with
  | some error => rw [andThen_of_error h]; exact fun _ => id
  | none => rw [andThen_of_ok h]; exact List.subset_append_left _ _

theorem mem_andThen {first second : Walk} {type : TypeExpr}
    (h : type ∈ (first.andThen second).types) :
    type ∈ first.types ∨ first.error = none ∧ type ∈ second.types := by
  cases herror : first.error with
  | some error =>
      rw [andThen_of_error herror] at h
      exact .inl h
  | none =>
      rw [andThen_of_ok herror] at h
      exact (List.mem_append.1 h).imp_right fun hsecond => ⟨rfl, hsecond⟩

end Walk

namespace Registry

/-- The traversal of `type`, which is over at once when the type is known. -/
def unlessKnown (registry : Registry) (type : TypeExpr) (walk : Walk) : Walk :=
  if (registry.known? type).isSome then .done else walk

mutual
/-- `registry.walk type` comes to the types that `type` is made of and that are not known, arguments
before the type itself and from left to right, and stops at the first without a codec. -/
def walk (registry : Registry) : TypeExpr → Walk
  | .void => registry.unlessKnown .void (.stopped (.notEncodable .void))
  | .pending result =>
      registry.unlessKnown (.pending result) (.stopped (.notEncodable (.pending result)))
  | .generic name =>
      registry.unlessKnown (.generic name) (.stopped (.unresolvedGeneric (.generic name)))
  | .named name args => registry.unlessKnown (.named name args) <|
      match registry.factories.lookup name with
      | none => .stopped (.notRegistered (.named name args))
      | some factory =>
          if factory.arity = args.length then
            (walkAll registry args).andThen ⟨[.named name args], none⟩
          else .stopped (.arity (.named name args) factory.arity args.length)

/-- The traversals of the types of a list, one after the other. -/
def walkAll (registry : Registry) : List TypeExpr → Walk
  | [] => .done
  | type :: types => (walk registry type).andThen (walkAll registry types)
end

/-- The types of a list that are not among those seen before, each where it comes first. -/
def unseen (seen : List TypeExpr) : List TypeExpr → List TypeExpr
  | [] => []
  | type :: types =>
      if type ∈ seen then unseen seen types else type :: unseen (seen ++ [type]) types

section Unseen

variable {seen types : List TypeExpr}

theorem unseen_append (seen types others : List TypeExpr) :
    unseen seen (types ++ others) =
      unseen seen types ++ unseen (seen ++ unseen seen types) others := by
  induction types generalizing seen with
  | nil => simp [unseen]
  | cons type types ih =>
      by_cases h : type ∈ seen
      · simp [unseen, h, ih]
      · simp [unseen, h, ih, List.append_assoc]

theorem unseen_of_subset (h : types ⊆ seen) : unseen seen types = [] := by
  induction types with
  | nil => rfl
  | cons type types ih =>
      obtain ⟨htype, htypes⟩ := List.cons_subset.1 h
      rw [unseen, if_pos htype, ih htypes]

theorem mem_unseen {type : TypeExpr} : type ∈ unseen seen types ↔ type ∈ types ∧ type ∉ seen := by
  induction types generalizing seen with
  | nil => simp [unseen]
  | cons first types ih =>
      by_cases h : first ∈ seen
      · rw [unseen, if_pos h, ih, List.mem_cons]
        constructor
        · rintro ⟨hmem, hnot⟩
          exact ⟨.inr hmem, hnot⟩
        · rintro ⟨rfl | hmem, hnot⟩
          · exact absurd h hnot
          · exact ⟨hmem, hnot⟩
      · rw [unseen, if_neg h, List.mem_cons, ih, List.mem_cons, List.mem_append,
          List.mem_singleton]
        by_cases hfirst : type = first
        · subst hfirst
          simp [h]
        · simp [hfirst]

theorem subset_append_unseen (seen types : List TypeExpr) : types ⊆ seen ++ unseen seen types := by
  intro type hmem
  by_cases h : type ∈ seen
  · exact List.mem_append_left _ h
  · exact List.mem_append_right _ (mem_unseen.2 ⟨hmem, h⟩)

theorem unseen_eq_eraseDups (types : List TypeExpr) : unseen [] types = types.eraseDups := by
  have hseen : ∀ seen, unseen seen types = (types.removeAll seen).eraseDups := by
    induction types with
    | nil => exact fun _ => rfl
    | cons type types ih =>
        intro seen
        by_cases h : type ∈ seen
        · simp [unseen, h, ih, List.removeAll]
        · have hrest : (types.removeAll seen).filter (fun other => !other == type) =
              types.removeAll (seen ++ [type]) := by
            rw [List.removeAll, List.removeAll, List.filter_filter]
            refine List.filter_congr fun other _ => ?_
            by_cases hother : other = type <;> simp [hother]
          rw [unseen, if_neg h, ih, ← hrest, ← List.eraseDups_cons]
          simp [List.removeAll, h]
  rw [hseen, List.removeAll_nil]

end Unseen

/-- The registry with more builds. -/
def remember (registry : Registry) (more : List Build) : Registry :=
  { registry with builds := registry.builds ++ more }

section Remember

variable {registry : Registry} {more others : List Build} {type : TypeExpr} {codec : ValueCodec}

theorem remember_remember :
    (registry.remember more).remember others = registry.remember (more ++ others) := by
  simp [remember]

theorem known?_remember :
    (registry.remember more).known? type =
      (registry.known? type).or ((more.find? fun build => build.type = type).map Build.codec) := by
  cases hentry : registry.entries.lookup type <;>
    simp [known?, built?, remember, hentry, List.find?_append, Option.map_or]

/-- What is known stays known. -/
theorem known?_remember_of_some (h : registry.known? type = some codec) :
    (registry.remember more).known? type = some codec := by
  rw [known?_remember, h, Option.some_or]

theorem map_known?_remember {types : List TypeExpr} {codecs : List ValueCodec}
    (h : types.map registry.known? = codecs.map some) :
    types.map (registry.remember more).known? = codecs.map some := by
  induction types generalizing codecs with
  | nil => exact h
  | cons type types ih =>
      cases codecs with
      | nil => exact nomatch h
      | cons codec codecs =>
          obtain ⟨htype, htypes⟩ := List.cons.inj h
          rw [List.map_cons, List.map_cons, known?_remember_of_some htype, ih htypes]

/-- What is not known becomes known by its build alone. -/
theorem known?_remember_eq_none_iff :
    (registry.remember more).known? type = none ↔
      registry.known? type = none ∧ type ∉ more.map Build.type := by
  rw [known?_remember, Option.or_eq_none_iff, Option.map_eq_none_iff, List.find?_eq_none]
  simp

end Remember

section Walk

variable {registry : Registry}

theorem unlessKnown_of_some {type : TypeExpr} {codec : ValueCodec}
    (h : registry.known? type = some codec) (walk : Walk) :
    registry.unlessKnown type walk = .done := by
  simp [unlessKnown, h]

theorem unlessKnown_of_none {type : TypeExpr} (h : registry.known? type = none) (walk : Walk) :
    registry.unlessKnown type walk = walk := by
  simp [unlessKnown, h]

theorem walk_of_known {type : TypeExpr} {codec : ValueCodec}
    (h : registry.known? type = some codec) : registry.walk type = .done := by
  cases type <;> rw [walk] <;> exact unlessKnown_of_some h _

theorem walk_named {name : String} {args : List TypeExpr} {factory : Factory}
    (hunknown : registry.known? (.named name args) = none)
    (hfactory : registry.factories.lookup name = some factory)
    (harity : factory.arity = args.length) :
    registry.walk (.named name args) =
      (registry.walkAll args).andThen ⟨[.named name args], none⟩ := by
  rw [walk, unlessKnown_of_none hunknown, hfactory]
  simp [harity]

/-- `registry.Passes whole type` says that a traversal of the types `whole` may come to `type`,
having come to everything that `type` is made of. -/
structure Passes (registry : Registry) (whole : List TypeExpr) (type : TypeExpr) : Prop where
  unknown : registry.known? type = none
  error_eq : (registry.walk type).error = none
  subset : (registry.walk type).types ⊆ whole

theorem Passes.mono {whole wider : List TypeExpr} {type : TypeExpr}
    (h : registry.Passes whole type) (hsubset : whole ⊆ wider) : registry.Passes wider type :=
  ⟨h.unknown, h.error_eq, List.Subset.trans h.subset hsubset⟩

variable (registry) in
mutual
/-- A walk comes to unknown types alone, each after what it is made of. -/
theorem mem_walk (type : TypeExpr) : ∀ inner ∈ (registry.walk type).types,
    registry.Passes (registry.walk type).types inner ∧ sizeOf inner ≤ sizeOf type := by
  cases hknown : registry.known? type with
  | some codec =>
      rw [walk_of_known hknown]
      exact nofun
  | none =>
      cases type with
      | void =>
          rw [walk, unlessKnown_of_none hknown]
          exact nofun
      | pending result =>
          rw [walk, unlessKnown_of_none hknown]
          exact nofun
      | generic name =>
          rw [walk, unlessKnown_of_none hknown]
          exact nofun
      | named name args =>
          cases hfactory : registry.factories.lookup name with
          | none =>
              rw [walk, unlessKnown_of_none hknown, hfactory]
              exact nofun
          | some factory =>
              by_cases harity : factory.arity = args.length
              · have hwalk := walk_named hknown hfactory harity
                rw [hwalk]
                intro inner hmem
                rcases Walk.mem_andThen hmem with hinner | ⟨herror, hself⟩
                · obtain ⟨hpasses, hsize⟩ := mem_walkAll args inner hinner
                  refine ⟨hpasses.mono (Walk.subset_andThen _ _), ?_⟩
                  simp only [TypeExpr.named.sizeOf_spec]
                  omega
                · obtain rfl := List.mem_singleton.1 hself
                  rw [Walk.andThen_of_ok herror] at hwalk ⊢
                  exact ⟨⟨hknown, by rw [hwalk], by rw [hwalk]; exact fun _ => id⟩, Nat.le_refl _⟩
              · rw [walk, unlessKnown_of_none hknown, hfactory]
                simp only [harity, if_false]
                exact nofun

theorem mem_walkAll (types : List TypeExpr) : ∀ inner ∈ (registry.walkAll types).types,
    registry.Passes (registry.walkAll types).types inner ∧ sizeOf inner < sizeOf types := by
  cases types with
  | nil => exact nofun
  | cons type types =>
      rw [walkAll]
      intro inner hmem
      rcases Walk.mem_andThen hmem with hfirst | ⟨herror, hrest⟩
      · obtain ⟨hpasses, hsize⟩ := mem_walk type inner hfirst
        refine ⟨hpasses.mono (Walk.subset_andThen _ _), ?_⟩
        simp only [List.cons.sizeOf_spec]
        omega
      · obtain ⟨hpasses, hsize⟩ := mem_walkAll types inner hrest
        rw [Walk.andThen_of_ok herror]
        refine ⟨hpasses.mono (List.subset_append_right _ _), ?_⟩
        simp only [List.cons.sizeOf_spec]
        omega
end

end Walk

/-- `registry.Makes build` says how a build is made: by the factory of its name, out of the codecs
that the registry has for the arguments of its type. -/
def Makes (registry : Registry) (build : Build) : Prop :=
  ∃ name args factory, build.type = .named name args ∧
    registry.factories.lookup name = some factory ∧ factory.arity = args.length ∧
    args.map registry.known? = build.arguments.map some ∧
    build.codec = factory.build build.arguments

theorem Makes.remember {registry : Registry} {build : Build} (h : registry.Makes build)
    (more : List Build) : (registry.remember more).Makes build := by
  obtain ⟨name, args, factory, htype, hfactory, harity, harguments, hcodec⟩ := h
  exact ⟨name, args, factory, htype, hfactory, harity, map_known?_remember harguments, hcodec⟩

/-- `registry.Adds added` says that lookups may have added these builds to `registry`: no type was
known before or built twice, and everything that it is made of was built as well. -/
structure Adds (registry : Registry) (added : List Build) : Prop where
  nodup : (added.map Build.type).Nodup
  passes : ∀ build ∈ added, registry.Passes (added.map Build.type) build.type
  made : ∀ build ∈ added, (registry.remember added).Makes build

theorem adds_nil (registry : Registry) : registry.Adds [] := ⟨.nil, nofun, nofun⟩

/-- One more build, of a type that is made of what is known by now. -/
theorem Adds.concat {registry : Registry} {added : List Build} {build : Build}
    (h : registry.Adds added) (hnew : build.type ∉ added.map Build.type)
    (hpasses : registry.Passes (added.map Build.type ++ [build.type]) build.type)
    (hmakes : (registry.remember added).Makes build) : registry.Adds (added ++ [build]) where
  nodup := by
    rw [List.map_append, List.map_singleton]
    refine List.nodup_append.2 ⟨h.nodup, List.nodup_singleton _, ?_⟩
    rintro type hmem other hother rfl
    exact hnew (List.mem_singleton.1 hother ▸ hmem)
  passes := by
    rw [List.map_append, List.map_singleton]
    intro other hmem
    rcases List.mem_append.1 hmem with hbefore | hlast
    · exact (h.passes other hbefore).mono (List.subset_append_left _ _)
    · rwa [List.mem_singleton.1 hlast]
  made := by
    rw [← remember_remember]
    intro other hmem
    rcases List.mem_append.1 hmem with hbefore | hlast
    · exact (h.made other hbefore).remember _
    · rw [List.mem_singleton.1 hlast]
      exact hmakes.remember _

/-- `registry.Grows added types after` says that `after` has built the types of a list that it did
not have, in addition to `added`. -/
def Grows (registry : Registry) (added : List Build) (types : List TypeExpr) (after : Registry) :
    Prop :=
  ∃ fresh, after = registry.remember (added ++ fresh) ∧ registry.Adds (added ++ fresh) ∧
    fresh.map Build.type = unseen (added.map Build.type) types

/-- `registry.Builds added walk found result` says that the result is that of a walk for which
`added` was built before. -/
inductive Builds {α : Type} (registry : Registry) (added : List Build) (walk : Walk)
    (found : Registry → α → Prop) : EStateM.Result LookupError Registry α → Prop where
  | found (a after) : walk.error = none → registry.Grows added walk.types after →
      found after a → Builds registry added walk found (.ok a after)
  | failed (error after) : walk.error = some error → registry.Grows added walk.types after →
      Builds registry added walk found (.error error after)

theorem Builds.grows {α : Type} {registry : Registry} {added : List Build} {walk : Walk}
    {found : Registry → α → Prop} {result : EStateM.Result LookupError Registry α}
    (h : registry.Builds added walk found result) :
    registry.Grows added walk.types (Action.left result) := by
  cases h with
  | found _ _ _ hgrows => exact hgrows
  | failed _ _ _ hgrows => exact hgrows

theorem Builds.error_iff {α : Type} {registry : Registry} {added : List Build} {walk : Walk}
    {found : Registry → α → Prop} {result : EStateM.Result LookupError Registry α}
    (h : registry.Builds added walk found result) (error : LookupError) :
    Action.outcome result = .error error ↔ walk.error = some error := by
  cases h with
  | found _ _ hnone => exact ⟨nofun, fun hsome => nomatch hnone.symm.trans hsome⟩
  | failed _ _ herror =>
      rw [herror]
      exact ⟨fun heq => congrArg some (Except.error.inj heq),
        fun heq => congrArg Except.error (Option.some.inj heq)⟩

section Grows

variable {registry after last : Registry} {added more : List Build} {types others : List TypeExpr}
  {type : TypeExpr} {codec : ValueCodec}

theorem grows_refl (h : registry.Adds added) (htypes : types ⊆ added.map Build.type) :
    registry.Grows added types (registry.remember added) :=
  ⟨[], by rw [List.append_nil], by rwa [List.append_nil], (unseen_of_subset htypes).symm⟩

theorem grows_concat {build : Build} (h : registry.Adds (added ++ [build]))
    (hnew : build.type ∉ added.map Build.type) :
    registry.Grows added [build.type] (registry.remember (added ++ [build])) := by
  refine ⟨[build], rfl, h, ?_⟩
  rw [unseen, if_neg hnew]
  rfl

theorem Grows.append
    (htypes : more.map Build.type = unseen (added.map Build.type) types)
    (hrest : registry.Grows (added ++ more) others last) :
    registry.Grows added (types ++ others) last := by
  obtain ⟨fresh, rfl, hadds, hothers⟩ := hrest
  rw [List.append_assoc] at hadds
  refine ⟨more ++ fresh, by rw [List.append_assoc], hadds, ?_⟩
  rw [unseen_append, List.map_append, htypes, hothers, List.map_append, htypes]

theorem Grows.known?_of_some (h : registry.Grows added types after)
    (hknown : (registry.remember added).known? type = some codec) :
    after.known? type = some codec := by
  obtain ⟨fresh, rfl, _⟩ := h
  rw [← remember_remember]
  exact known?_remember_of_some hknown

end Grows

section Find

variable {registry : Registry} {added : List Build}

/-- A type that is known by now was passed by every walk that came to it. -/
theorem builds_of_known (h : registry.Adds added) {type : TypeExpr} {codec : ValueCodec}
    (hknown : (registry.remember added).known? type = some codec) :
    registry.Builds added (registry.walk type) (fun after codec => after.known? type = some codec)
      (.ok codec (registry.remember added)) := by
  cases hbefore : registry.known? type with
  | some before =>
      rw [walk_of_known hbefore]
      exact .found _ _ rfl (grows_refl h nofun) hknown
  | none =>
      have hmem : type ∈ added.map Build.type := by
        by_contra hnot
        rw [known?_remember_eq_none_iff.2 ⟨hbefore, hnot⟩] at hknown
        exact nomatch hknown
      obtain ⟨build, hbuild, rfl⟩ := List.mem_map.1 hmem
      have hpasses := h.passes build hbuild
      exact .found _ _ hpasses.error_eq (grows_refl h hpasses.subset) hknown

/-- A walk that is stopped at once builds nothing. -/
theorem builds_of_stopped {α : Type} {found : Registry → α → Prop} (h : registry.Adds added)
    (error : LookupError) :
    registry.Builds added (.stopped error) found (.error error (registry.remember added)) :=
  .failed _ _ rfl (grows_refl h nofun)

theorem factoryFor_eq (registry : Registry) (name : String) (args : List TypeExpr) :
    factoryFor name args registry =
      match registry.factories.lookup name with
      | none => .error (.notRegistered (.named name args)) registry
      | some factory =>
          if factory.arity = args.length then .ok factory registry
          else .error (.arity (.named name args) factory.arity args.length) registry := by
  simp only [factoryFor, bind, EStateM.bind, get, getThe, MonadStateOf.get, EStateM.get]
  cases registry.factories.lookup name with
  | none => rfl
  | some factory =>
      by_cases harity : factory.arity = args.length
      · simp only [harity, if_true]
        rfl
      · simp only [harity, if_false]
        rfl

theorem build_eq (factory : Factory) (type : TypeExpr) (arguments : List ValueCodec)
    (registry : Registry) :
    build factory type arguments registry = .ok (factory.build arguments)
      (registry.remember [⟨type, arguments, factory.build arguments⟩]) := rfl

/-- With the codecs of its arguments, a type is built that was not known before. -/
theorem builds_of_arguments {name : String} {args : List TypeExpr} {factory : Factory}
    {arguments : List ValueCodec} {fresh : List Build}
    (hunknown : registry.known? (.named name args) = none)
    (hnew : .named name args ∉ added.map Build.type)
    (hfactory : registry.factories.lookup name = some factory)
    (harity : factory.arity = args.length) (herror : (registry.walkAll args).error = none)
    (hadds : registry.Adds (added ++ fresh))
    (htypes : fresh.map Build.type = unseen (added.map Build.type) (registry.walkAll args).types)
    (harguments : args.map (registry.remember (added ++ fresh)).known? = arguments.map some) :
    registry.Builds added ⟨(registry.walkAll args).types ++ [.named name args], none⟩
      (fun after codec => after.known? (.named name args) = some codec)
      (.ok (factory.build arguments) (registry.remember
        (added ++ fresh ++ [⟨.named name args, arguments, factory.build arguments⟩]))) := by
  have hwalk := walk_named hunknown hfactory harity
  rw [Walk.andThen_of_ok herror] at hwalk
  -- No type is made of itself, so the arguments did not build it.
  have hself : .named name args ∉ (added ++ fresh).map Build.type := by
    rw [List.map_append, htypes, List.mem_append]
    rintro (hmem | hmem)
    · exact hnew hmem
    · have hsize := (mem_walkAll registry args _ (mem_unseen.1 hmem).1).2
      simp only [TypeExpr.named.sizeOf_spec] at hsize
      omega
  have hpasses : registry.Passes ((added ++ fresh).map Build.type ++ [.named name args])
      (.named name args) := by
    refine ⟨hunknown, by rw [hwalk], ?_⟩
    rw [hwalk, List.map_append, htypes]
    exact List.append_subset.2 ⟨List.subset_append_of_subset_left _ (subset_append_unseen _ _),
      List.subset_append_right _ _⟩
  have hmakes : (registry.remember (added ++ fresh)).Makes
      ⟨.named name args, arguments, factory.build arguments⟩ :=
    ⟨name, args, factory, rfl, hfactory, harity, harguments, rfl⟩
  refine .found _ _ rfl (.append htypes (grows_concat (hadds.concat hself hpasses hmakes) hself)) ?_
  rw [← remember_remember, known?_remember, known?_remember_eq_none_iff.2 ⟨hunknown, hself⟩]
  simp

variable (registry) in
mutual
/-- A lookup builds what its walk comes to for the first time. -/
theorem find_builds (type : TypeExpr) {added : List Build} (h : registry.Adds added) :
    registry.Builds added (registry.walk type) (fun after codec => after.known? type = some codec)
      (find type (registry.remember added)) := by
  cases hknown : (registry.remember added).known? type with
  | some codec =>
      have hfind : find type (registry.remember added) = .ok codec (registry.remember added) := by
        cases type <;> rw [find] <;> exact orKnown_of_known hknown
      rw [hfind]
      exact builds_of_known h hknown
  | none =>
      obtain ⟨hunknown, hnew⟩ := known?_remember_eq_none_iff.1 hknown
      cases type with
      | void =>
          rw [find, orKnown_of_unknown hknown, walk, unlessKnown_of_none hunknown]
          exact builds_of_stopped h _
      | pending result =>
          rw [find, orKnown_of_unknown hknown, walk, unlessKnown_of_none hunknown]
          exact builds_of_stopped h _
      | generic name =>
          rw [find, orKnown_of_unknown hknown, walk, unlessKnown_of_none hunknown]
          exact builds_of_stopped h _
      | named name args =>
          rw [find, orKnown_of_unknown hknown]
          have hfactoryFor := factoryFor_eq (registry.remember added) name args
          cases hfactory : registry.factories.lookup name with
          | none =>
              rw [show (registry.remember added).factories.lookup name = none from hfactory]
                at hfactoryFor
              rw [Action.bind_of_error hfactoryFor, walk, unlessKnown_of_none hunknown, hfactory]
              exact builds_of_stopped h _
          | some factory =>
              rw [show (registry.remember added).factories.lookup name = some factory
                from hfactory] at hfactoryFor
              by_cases harity : factory.arity = args.length
              · simp only [harity, if_true] at hfactoryFor
                rw [Action.bind_of_ok hfactoryFor, walk_named hunknown hfactory harity]
                have hargs := findAll_builds args h
                cases hfindAll : findAll args (registry.remember added) with
                | error error after =>
                    rw [hfindAll] at hargs
                    cases hargs with
                    | failed _ _ herror hgrows =>
                        rw [Action.bind_of_error hfindAll, Walk.andThen_of_error herror]
                        exact .failed _ _ herror hgrows
                | ok arguments after =>
                    rw [hfindAll] at hargs
                    cases hargs with
                    | found _ _ herror hgrows harguments =>
                        obtain ⟨fresh, rfl, hadds, htypes⟩ := hgrows
                        rw [Action.bind_of_ok hfindAll, Walk.andThen_of_ok herror, build_eq,
                          remember_remember]
                        exact builds_of_arguments hunknown hnew hfactory harity herror hadds htypes
                          harguments
              · simp only [harity, if_false] at hfactoryFor
                rw [Action.bind_of_error hfactoryFor, walk, unlessKnown_of_none hunknown, hfactory]
                simp only [harity, if_false]
                exact builds_of_stopped h _

/-- So do lookups one after the other. -/
theorem findAll_builds (types : List TypeExpr) {added : List Build} (h : registry.Adds added) :
    registry.Builds added (registry.walkAll types)
      (fun after codecs => types.map after.known? = codecs.map some)
      (findAll types (registry.remember added)) := by
  cases types with
  | nil =>
      rw [findAll, walkAll]
      exact .found _ _ rfl (grows_refl h nofun) rfl
  | cons type types =>
      rw [findAll, walkAll]
      have hfirst := find_builds type h
      cases hfind : find type (registry.remember added) with
      | error error after =>
          rw [hfind] at hfirst
          cases hfirst with
          | failed _ _ herror hgrows =>
              rw [Action.bind_of_error hfind, Walk.andThen_of_error herror]
              exact .failed _ _ herror hgrows
      | ok codec after =>
          rw [hfind] at hfirst
          cases hfirst with
          | found _ _ herror hgrows hcodec =>
              obtain ⟨fresh, rfl, hadds, htypes⟩ := hgrows
              have hrest := findAll_builds types hadds
              rw [Action.bind_of_ok hfind, Walk.andThen_of_ok herror]
              cases hfindAll : findAll types (registry.remember (added ++ fresh)) with
              | error error last =>
                  rw [hfindAll] at hrest
                  cases hrest with
                  | failed _ _ hlast hgrows =>
                      rw [Action.bind_of_error hfindAll]
                      exact .failed _ _ hlast (.append htypes hgrows)
              | ok codecs last =>
                  rw [hfindAll] at hrest
                  cases hrest with
                  | found _ _ hlast hgrows hcodecs =>
                      rw [Action.bind_of_ok hfindAll]
                      refine .found _ _ hlast (.append htypes hgrows) ?_
                      rw [List.map_cons, List.map_cons, hgrows.known?_of_some hcodec, hcodecs]
end

end Find

end Registry

end Switchboard
