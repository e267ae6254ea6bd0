import Mathlib
import Switchboard.TypeExpr

/-!
# Instances of type expressions

`TypeExpr.Instantiates` says what a type expression is when the generic parameters of a method stand
for given types, position by position. The main result, `TypeExpr.instantiates_iff`, says that this
is what `TypeExpr.substitute` makes of it.
-/

namespace Switchboard.TypeExpr

mutual
/-- `Instantiates names types type result` says that `result` is `type` with the type at the same
position of `types` in the place of each generic in `names`. Other generics stay, and so does
whatever is mentioned in the types put in. -/
inductive Instantiates (names : List String) (types : List TypeExpr) :
    TypeExpr → TypeExpr → Prop where
  | void : Instantiates names types void void
  | named (name args results) : InstantiatesAll names types args results →
      Instantiates names types (named name args) (named name results)
  | bound (name index type) : names.idxOf? name = some index → types[index]? = some type →
      Instantiates names types (generic name) type
  | unbound (name) : name ∉ names → Instantiates names types (generic name) (generic name)
  | pending (settled result) : Instantiates names types settled result →
      Instantiates names types (pending settled) (pending result)

/-- `InstantiatesAll names types args results` instantiates each expression of a list. -/
inductive InstantiatesAll (names : List String) (types : List TypeExpr) :
    List TypeExpr → List TypeExpr → Prop where
  | nil : InstantiatesAll names types [] []
  | cons (type result args results) : Instantiates names types type result →
      InstantiatesAll names types args results →
      InstantiatesAll names types (type :: args) (result :: results)
end

variable {names : List String} {types : List TypeExpr}

theorem Bindings.ofLists_eq_none {name : String} (h : name ∉ names) :
    Bindings.ofLists names types name = none := by
  rw [ofLists, List.lookup_eq_none_iff]
  rintro ⟨declared, type⟩ hmem
  have hdeclared := (List.of_mem_zip hmem).1
  have hother : name ≠ declared := fun hname => h (hname ▸ hdeclared)
  exact bne_iff_ne.2 hother

/-- A name is bound to the type at its own position. -/
theorem Bindings.ofLists_eq_getElem? {name : String} {index : Nat}
    (h : names.idxOf? name = some index) :
    Bindings.ofLists names types name = types[index]? := by
  induction names generalizing types index with
  | nil => simp at h
  | cons declared names ih =>
      cases types with
      | nil => rfl
      | cons type types =>
          rw [List.idxOf?_cons] at h
          by_cases hname : declared = name
          · subst hname
            obtain rfl : 0 = index := by simpa using h
            simp [ofLists]
          · rw [if_neg (by simpa using hname)] at h
            obtain ⟨rest, hrest, rfl⟩ := Option.map_eq_some_iff.1 h
            have hother : (name == declared) = false := beq_false_of_ne (Ne.symm hname)
            rw [List.getElem?_cons_succ, ← ih hrest]
            simp only [ofLists, List.zip_cons_cons, List.lookup_cons, hother]

mutual
/-- What `Instantiates` says is what a substitution gives. -/
theorem substitute_of_instantiates {type result : TypeExpr}
    (h : Instantiates names types type result) :
    type.substitute (.ofLists names types) = result := by
  cases h with
  | void => rfl
  | named name args results hargs => rw [substitute, substituteAll_of_instantiatesAll hargs]
  | bound name index _ hindex htype =>
      rw [substitute, Bindings.ofLists_eq_getElem? hindex, htype]
      rfl
  | unbound name hname =>
      rw [substitute, Bindings.ofLists_eq_none hname]
      rfl
  | pending settled result hsettled => rw [substitute, substitute_of_instantiates hsettled]

theorem substituteAll_of_instantiatesAll {args results : List TypeExpr}
    (h : InstantiatesAll names types args results) :
    substituteAll (.ofLists names types) args = results := by
  cases h with
  | nil => rfl
  | cons type result args results htype hargs =>
      rw [substituteAll, substitute_of_instantiates htype, substituteAll_of_instantiatesAll hargs]
end

mutual
/-- A substitution gives what `Instantiates` says when there is a type for each name. -/
theorem instantiates_substitute (h : names.length = types.length) (type : TypeExpr) :
    Instantiates names types type (type.substitute (.ofLists names types)) := by
  cases type with
  | void => exact .void
  | named name args => exact .named _ _ _ (instantiatesAll_substituteAll h args)
  | generic name =>
      rw [substitute]
      cases hindex : names.idxOf? name with
      | none =>
          have hname : name ∉ names := List.idxOf?_eq_none_iff.1 hindex
          rw [Bindings.ofLists_eq_none hname]
          exact .unbound name hname
      | some index =>
          obtain ⟨hdeclared, -⟩ := List.findIdx?_eq_some_iff_getElem.1 hindex
          have hbound : index < types.length := h ▸ hdeclared
          rw [Bindings.ofLists_eq_getElem? hindex, List.getElem?_eq_getElem hbound]
          exact .bound name index _ hindex (List.getElem?_eq_getElem hbound)
  | pending settled => exact .pending _ _ (instantiates_substitute h settled)

theorem instantiatesAll_substituteAll (h : names.length = types.length) (args : List TypeExpr) :
    InstantiatesAll names types args (substituteAll (.ofLists names types) args) := by
  cases args with
  | nil => exact .nil
  | cons type args =>
      exact .cons _ _ _ _ (instantiates_substitute h type) (instantiatesAll_substituteAll h args)
end

/-- A substitution of as many types as names gives the instance of a type, and nothing else is. -/
theorem instantiates_iff (h : names.length = types.length) {type result : TypeExpr} :
    Instantiates names types type result ↔
      type.substitute (.ofLists names types) = result := by
  refine ⟨substitute_of_instantiates, ?_⟩
  rintro rfl
  exact instantiates_substitute h type

mutual
/-- A substitution for no names changes nothing. -/
theorem substitute_ofLists_nil (type : TypeExpr) : type.substitute (.ofLists [] []) = type := by
  cases type with
  | void => rfl
  | named name args => rw [substitute, substituteAll_ofLists_nil args]
  | generic name => rfl
  | pending settled => rw [substitute, substitute_ofLists_nil settled]

theorem substituteAll_ofLists_nil (types : List TypeExpr) :
    substituteAll (.ofLists [] []) types = types := by
  cases types with
  | nil => rfl
  | cons type types =>
      rw [substituteAll, substitute_ofLists_nil type, substituteAll_ofLists_nil types]
end

end Switchboard.TypeExpr
