import Mathlib
import Switchboard.TypeExpr

/-!
# The generics of a type expression

`TypeExpr.genericNames` lists the generics that an expression mentions, from left to right. Binding
generics replaces each name in this list by the names of what is bound to it, so an expression is
resolved exactly when every name in it is bound to an expression without generics.
-/

namespace Switchboard.TypeExpr

mutual
/-- The names of the generics that an expression mentions, from left to right and as often as they
occur. -/
def genericNames : TypeExpr → List String
  | void => []
  | named _ args => genericNamesAll args
  | generic name => [name]
  | pending result => genericNames result

/-- The names of the generics that a list of expressions mentions. -/
def genericNamesAll : List TypeExpr → List String
  | [] => []
  | type :: types => genericNames type ++ genericNamesAll types
end

/-- The names of the generics in what stands for `name` after binding. -/
def Bindings.namesFor (bindings : Bindings) (name : String) : List String :=
  match bindings name with
  | some bound => bound.genericNames
  | none => [name]

mutual
theorem firstUnresolvedGeneric_eq_head? (type : TypeExpr) :
    type.firstUnresolvedGeneric = type.genericNames.head? := by
  cases type with
  | void => rfl
  | named name args =>
      rw [firstUnresolvedGeneric, genericNames]
      exact firstUnresolvedOf_eq_head? args
  | generic name => rfl
  | pending result =>
      rw [firstUnresolvedGeneric, genericNames]
      exact firstUnresolvedGeneric_eq_head? result

theorem firstUnresolvedOf_eq_head? (types : List TypeExpr) :
    firstUnresolvedOf types = (genericNamesAll types).head? := by
  cases types with
  | nil => rfl
  | cons type types =>
      rw [firstUnresolvedOf, genericNamesAll, List.head?_append,
        firstUnresolvedGeneric_eq_head? type, firstUnresolvedOf_eq_head? types,
        Option.orElse_eq_orElse, Option.orElse_eq_or]
end

mutual
/-- Substitution replaces each name by the names of what it is bound to, in place. -/
theorem genericNames_substitute (bindings : Bindings) (type : TypeExpr) :
    (type.substitute bindings).genericNames = type.genericNames.flatMap bindings.namesFor := by
  cases type with
  | void => rfl
  | named name args =>
      rw [substitute, genericNames, genericNames]
      exact genericNamesAll_substituteAll bindings args
  | generic name =>
      cases hbound : bindings name <;>
        simp [substitute, genericNames, Bindings.namesFor, hbound]
  | pending result =>
      rw [substitute, genericNames, genericNames]
      exact genericNames_substitute bindings result

theorem genericNamesAll_substituteAll (bindings : Bindings) (types : List TypeExpr) :
    genericNamesAll (substituteAll bindings types) =
      (genericNamesAll types).flatMap bindings.namesFor := by
  cases types with
  | nil => rfl
  | cons type types =>
      rw [substituteAll, genericNamesAll, genericNamesAll, List.flatMap_append,
        genericNames_substitute bindings type, genericNamesAll_substituteAll bindings types]
end

/-- `bindings.Resolve type` says that every generic in `type` is bound, and bound to a type without
generics. -/
def Bindings.Resolve (bindings : Bindings) (type : TypeExpr) : Prop :=
  ∀ name ∈ type.genericNames, ∃ bound, bindings name = some bound ∧ bound.genericNames = []

theorem Bindings.namesFor_eq_nil_iff (bindings : Bindings) (name : String) :
    bindings.namesFor name = [] ↔
      ∃ bound, bindings name = some bound ∧ bound.genericNames = [] := by
  unfold namesFor
  cases bindings name <;> simp

/-- No generic is left in a type exactly when the bindings resolve it. -/
theorem firstUnresolvedGeneric_substitute_eq_none_iff (bindings : Bindings) (type : TypeExpr) :
    (type.substitute bindings).firstUnresolvedGeneric = none ↔ bindings.Resolve type := by
  rw [firstUnresolvedGeneric_eq_head?, List.head?_eq_none_iff, genericNames_substitute,
    List.flatMap_eq_nil_iff]
  simp only [Bindings.Resolve, Bindings.namesFor_eq_nil_iff]

end Switchboard.TypeExpr
