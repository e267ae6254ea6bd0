import Switchboard.Proofs.TypeExpr.Generics
import Switchboard.Proofs.TypeExpr.Instance

/-!
# Laws of substitution

`Bindings.unresolvedFor` is what a name leaves unbound, and `Bindings.andThen` binds at once what two
bindings bind one after the other. The main result, `TypeExpr.substitution_laws`, says which generic
is the leftmost after a substitution, that two substitutions are one, which types no substitution
changes, and when two bindings give the same result.
-/

namespace Switchboard.TypeExpr

namespace Bindings

/-- The leftmost generic in what stands for `name` after binding: the name itself if it is not
bound. -/
def unresolvedFor (bindings : Bindings) (name : String) : Option String :=
  match bindings name with
  | some bound => bound.firstUnresolvedGeneric
  | none => some name

/-- What stands for `name` after binding. -/
def image (bindings : Bindings) (name : String) : TypeExpr :=
  (bindings name).getD (generic name)

/-- Binds what `first` binds, to types in which `later` binds the generics that are left, and the
other names as `later` does. -/
def andThen (first later : Bindings) : Bindings := fun name =>
  match first name with
  | some bound => some (bound.substitute later)
  | none => later name

theorem head?_namesFor (bindings : Bindings) (name : String) :
    (bindings.namesFor name).head? = bindings.unresolvedFor name := by
  unfold namesFor unresolvedFor
  cases bindings name with
  | none => rfl
  | some bound => exact (firstUnresolvedGeneric_eq_head? bound).symm

theorem image_andThen (first later : Bindings) (name : String) :
    (first.andThen later).image name = (first.image name).substitute later := by
  unfold image andThen
  cases first name <;> rfl

end Bindings

/-- The leftmost generic after a substitution comes from the first name that leaves any. -/
theorem firstUnresolvedGeneric_substitute (bindings : Bindings) (type : TypeExpr) :
    (type.substitute bindings).firstUnresolvedGeneric =
      type.genericNames.findSome? bindings.unresolvedFor := by
  rw [firstUnresolvedGeneric_eq_head?, genericNames_substitute, List.head?_flatMap]
  simp only [Bindings.head?_namesFor]

mutual
theorem substitute_substitute (first later : Bindings) (type : TypeExpr) :
    (type.substitute first).substitute later = type.substitute (first.andThen later) := by
  cases type with
  | void => rfl
  | named name args =>
      rw [substitute, substitute, substitute, substituteAll_substituteAll first later args]
  | generic name => exact (Bindings.image_andThen first later name).symm
  | pending result =>
      rw [substitute, substitute, substitute, substitute_substitute first later result]

theorem substituteAll_substituteAll (first later : Bindings) (types : List TypeExpr) :
    substituteAll later (substituteAll first types) =
      substituteAll (first.andThen later) types := by
  cases types with
  | nil => rfl
  | cons type types =>
      rw [substituteAll, substituteAll, substituteAll, substitute_substitute first later type,
        substituteAll_substituteAll first later types]
end

mutual
/-- Only what stands for the generics of a type matters to a substitution in it. -/
theorem substitute_eq_iff {first later : Bindings} (type : TypeExpr) :
    type.substitute first = type.substitute later ↔
      ∀ name ∈ type.genericNames, first.image name = later.image name := by
  cases type with
  | void => simp [substitute, genericNames]
  | named name args =>
      rw [substitute, substitute, genericNames, ← substituteAll_eq_iff args]
      simp
  | generic name => simp [substitute, genericNames, Bindings.image]
  | pending result =>
      rw [substitute, substitute, genericNames, ← substitute_eq_iff result]
      simp

theorem substituteAll_eq_iff {first later : Bindings} (types : List TypeExpr) :
    substituteAll first types = substituteAll later types ↔
      ∀ name ∈ genericNamesAll types, first.image name = later.image name := by
  cases types with
  | nil => simp [substituteAll, genericNamesAll]
  | cons type types =>
      rw [substituteAll, substituteAll, genericNamesAll, List.forall_mem_append,
        ← substitute_eq_iff type, ← substituteAll_eq_iff types, List.cons.injEq]
end

/-- The types that no substitution changes are those without generics. -/
theorem forall_substitute_eq_iff (type : TypeExpr) :
    (∀ bindings, type.substitute bindings = type) ↔ type.firstUnresolvedGeneric = none := by
  rw [firstUnresolvedGeneric_eq_head?, List.head?_eq_none_iff]
  constructor
  · intro h
    -- Nothing is left of the generics of a type when all of them are bound to one without any.
    have hnames := genericNames_substitute (fun _ => some void) type
    rw [h] at hnames
    rw [hnames, List.flatMap_eq_nil_iff]
    exact fun _ _ => rfl
  · intro h bindings
    have hsame : type.substitute bindings = type.substitute (.ofLists [] []) := by
      rw [substitute_eq_iff, h]
      exact fun _ => nofun
    rw [hsame, substitute_ofLists_nil]

/-- The laws of substitution. The leftmost generic after a substitution is found by reading the
generics from left to right up to the first that is not bound, or bound to a type that has generics
itself. There is none when all are bound to types without generics. Two substitutions are the one
for the bindings one after the other. A type is changed by some substitution unless it has no
generics, and two substitutions differ in a type only if they differ in one of its generics. -/
theorem substitution_laws (type : TypeExpr) (first later : Bindings) :
    (type.substitute first).firstUnresolvedGeneric =
      type.genericNames.findSome? first.unresolvedFor ∧
    ((type.substitute first).firstUnresolvedGeneric = none ↔
      ∀ name ∈ type.genericNames,
        ∃ bound, first name = some bound ∧ bound.firstUnresolvedGeneric = none) ∧
    (type.substitute first).substitute later = type.substitute (first.andThen later) ∧
    ((∀ bindings, type.substitute bindings = type) ↔ type.firstUnresolvedGeneric = none) ∧
    (type.substitute first = type.substitute later ↔
      ∀ name ∈ type.genericNames, first.image name = later.image name) := by
  refine ⟨firstUnresolvedGeneric_substitute first type, ?_, substitute_substitute first later type,
    forall_substitute_eq_iff type, substitute_eq_iff type⟩
  rw [firstUnresolvedGeneric_substitute_eq_none_iff, Bindings.Resolve]
  simp only [firstUnresolvedGeneric_eq_head?, List.head?_eq_none_iff]

/-- A type may be bound to a name that it mentions itself, and is not searched again. -/
example : (named "Vec" [generic "T"]).substitute (.ofLists ["T"] [named "Set" [generic "T"]]) =
    named "Vec" [named "Set" [generic "T"]] := by
  decide

end Switchboard.TypeExpr
