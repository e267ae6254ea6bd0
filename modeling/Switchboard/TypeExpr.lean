/-!
# Type expressions

`TypeExpr` describes the type of a parameter or of a result as it stands in a service description.
A description may mention generic parameters by name: `substitute` binds them, and
`firstUnresolvedGeneric` names the leftmost one that is still unbound. `decEq` decides equality of
expressions, and `display` is their text in messages.
-/

namespace Switchboard

/-- A `TypeExpr` is no value at all (`void`), a type with type arguments (`named`), a generic
parameter of the enclosing method (`generic`), or an operation in progress that settles with a
value of another type (`pending`). -/
inductive TypeExpr where
  | void
  | named (name : String) (args : List TypeExpr)
  | generic (name : String)
  | pending (result : TypeExpr)

namespace TypeExpr

instance : Inhabited TypeExpr := ⟨void⟩

mutual
/-- Decides whether two expressions are the same. -/
def decEq : (s t : TypeExpr) → Decidable (s = t)
  | void, void => isTrue rfl
  | void, named _ _ => isFalse (by simp)
  | void, generic _ => isFalse (by simp)
  | void, pending _ => isFalse (by simp)
  | named _ _, void => isFalse (by simp)
  | named n as, named m bs =>
    if hname : n = m then
      match decEqAll as bs with
      | isTrue hargs => isTrue (by rw [hname, hargs])
      | isFalse hargs => isFalse (by simp [hargs])
    else isFalse (by simp [hname])
  | named _ _, generic _ => isFalse (by simp)
  | named _ _, pending _ => isFalse (by simp)
  | generic _, void => isFalse (by simp)
  | generic _, named _ _ => isFalse (by simp)
  | generic n, generic m =>
    if hname : n = m then isTrue (by rw [hname]) else isFalse (by simp [hname])
  | generic _, pending _ => isFalse (by simp)
  | pending _, void => isFalse (by simp)
  | pending _, named _ _ => isFalse (by simp)
  | pending _, generic _ => isFalse (by simp)
  | pending s, pending t =>
    match decEq s t with
    | isTrue hresult => isTrue (by rw [hresult])
    | isFalse hresult => isFalse (by simp [hresult])

/-- Decides whether two argument lists are the same. -/
def decEqAll : (as bs : List TypeExpr) → Decidable (as = bs)
  | [], [] => isTrue rfl
  | [], _ :: _ => isFalse (by simp)
  | _ :: _, [] => isFalse (by simp)
  | a :: as, b :: bs =>
    match decEq a b, decEqAll as bs with
    | isTrue hhead, isTrue htail => isTrue (by rw [hhead, htail])
    | isFalse hhead, _ => isFalse (by simp [hhead])
    | _, isFalse htail => isFalse (by simp [htail])
end

instance : DecidableEq TypeExpr := decEq

/-- A named type without arguments. -/
abbrev base (name : String) : TypeExpr := named name []

/-- Whether the expression stands for no value at all. -/
def isVoid : TypeExpr → Bool
  | void => true
  | _ => false

/-- What the operation settles with, when the expression is an operation in progress. -/
def pendingResult : TypeExpr → Option TypeExpr
  | pending result => some result
  | _ => none

/-- Whether the expression is an operation in progress. -/
def isPending (type : TypeExpr) : Bool := type.pendingResult.isSome

/-- `Bindings` sends the names that are bound to their types. -/
abbrev Bindings := String → Option TypeExpr

/-- Binds names to types position by position. -/
def Bindings.ofLists (names : List String) (types : List TypeExpr) : Bindings :=
  fun name => (names.zip types).lookup name

mutual
/-- Replaces every generic that `bindings` binds. The others stay, and the types put in are not
searched again. -/
def substitute (bindings : Bindings) : TypeExpr → TypeExpr
  | void => void
  | named name args => named name (substituteAll bindings args)
  | generic name => (bindings name).getD (generic name)
  | pending result => pending (substitute bindings result)

/-- Substitutes in each expression of a list. -/
def substituteAll (bindings : Bindings) : List TypeExpr → List TypeExpr
  | [] => []
  | type :: types => substitute bindings type :: substituteAll bindings types
end

mutual
/-- The leftmost generic that the expression mentions. -/
def firstUnresolvedGeneric : TypeExpr → Option String
  | void => none
  | named _ args => firstUnresolvedOf args
  | generic name => some name
  | pending result => firstUnresolvedGeneric result

/-- The leftmost generic that a list of expressions mentions. -/
def firstUnresolvedOf : List TypeExpr → Option String
  | [] => none
  | type :: types => firstUnresolvedGeneric type <|> firstUnresolvedOf types
end

mutual
/-- The text of an expression in messages, such as `Map<String, Vec<T>>`. -/
def display : TypeExpr → String
  | void => "void"
  | named name args =>
    match displayAll args with
    | [] => name
    | shown => name ++ "<" ++ ", ".intercalate shown ++ ">"
  | generic name => name
  | pending result => "Pending<" ++ display result ++ ">"

/-- The texts of the expressions of a list. -/
def displayAll : List TypeExpr → List String
  | [] => []
  | type :: types => display type :: displayAll types
end

theorem substituteAll_eq_map (bindings : Bindings) (types : List TypeExpr) :
    substituteAll bindings types = types.map (substitute bindings) := by
  induction types with
  | nil => rfl
  | cons type types ih => simp [substituteAll, ih]

theorem firstUnresolvedOf_eq_findSome? (types : List TypeExpr) :
    firstUnresolvedOf types = types.findSome? firstUnresolvedGeneric := by
  induction types with
  | nil => rfl
  | cons type types ih =>
    cases htype : firstUnresolvedGeneric type <;> simp [firstUnresolvedOf, ih, htype]

theorem displayAll_eq_map (types : List TypeExpr) : displayAll types = types.map display := by
  induction types with
  | nil => rfl
  | cons type types ih => simp [displayAll, ih]

end TypeExpr

end Switchboard
