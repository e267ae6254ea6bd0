import Switchboard.Method.Error
import Switchboard.Remoting

/-!
# The arguments of a call

`Arguments` has one `Slot` for each parameter. A handler takes the value out of a `val` slot, reads
or updates in place what any slot holds, and assigns `ref` and `out` slots; what the `ref` and `out`
slots hold in the end goes into the response. Every action that fails leaves all slots as they were.
-/

namespace Switchboard

/-- A slot holds its value (`val`) until it is taken, always (`ref`), or from its first assignment
on (`out`). -/
inductive Slot where
  | val (value : Option Value)
  | ref (value : Value)
  | out (value : Option Value)

namespace Slot

/-- The way of the parameter. -/
def way : Slot → Way
  | val _ => .val
  | ref _ => .ref
  | out _ => .out

/-- The value in a slot, or why there is none. -/
def current : Slot → Except ArgumentFault Value
  | val (some value) | ref value | out (some value) => .ok value
  | val none => .error .alreadyTaken
  | out none => .error .unassigned

/-- The slot with `value` in it. -/
def hold (value : Value) : Slot → Slot
  | val _ => val (some value)
  | ref _ => ref value
  | out _ => out (some value)

end Slot

/-- The slots of a call, and the types that the generic parameters of the method stand for. -/
structure Arguments where
  slots : List Slot
  generics : List TypeExpr

/-- An action on the arguments of a call. -/
abbrev ArgumentsM := EStateM MethodError Arguments

namespace Arguments

/-- Whether the method has no parameters. -/
def isEmpty (arguments : Arguments) : Bool := arguments.slots.isEmpty

/-- The number of parameters. -/
def length (arguments : Arguments) : Nat := arguments.slots.length

/-- The way of a parameter, if there is one at `index`. -/
def way (arguments : Arguments) (index : Nat) : Option Way :=
  (arguments.slots[index]?).map Slot.way

/-- Fails at one slot. -/
def fault {α : Type} (index : Nat) (reason : ArgumentFault) : ArgumentsM α :=
  throw (.argument index reason)

/-- The slot of a parameter. -/
def slotAt (index : Nat) : ArgumentsM Slot := do
  match (← get).slots[index]? with
  | some slot => pure slot
  | none => fault index .outOfRange

/-- Puts a slot in the place of the one at `index`. -/
def replace (index : Nat) (slot : Slot) : ArgumentsM Unit :=
  modify fun arguments => { arguments with slots := arguments.slots.set index slot }

/-- The value as one of type `type`. -/
def cast (index : Nat) (type : ValueType) (value : Value) : ArgumentsM (Value.OfType type) :=
  if h : value.type = type then pure ⟨value, h⟩
  else fault index (.wrongType type)

/-- Takes the value out of an input parameter, whatever its type. -/
def takeValue (index : Nat) : ArgumentsM Value := do
  match ← slotAt index with
  | .val (some value) =>
      replace index (.val none)
      pure value
  | .val none => fault index .alreadyTaken
  | .ref _ | .out _ => fault index .wrongWay

/-- Takes the value out of an input parameter, which must have the type `type`. A value of another
type is put back, so that it can still be taken as what it is. -/
def take (type : ValueType) (index : Nat) : ArgumentsM (Value.OfType type) := do
  let value ← takeValue index
  if h : value.type = type then pure ⟨value, h⟩
  else
    replace index (.val (some value))
    fault index (.wrongType type)

/-- What a parameter holds, which must have the type `type`. -/
def get (type : ValueType) (index : Nat) : ArgumentsM (Value.OfType type) := do
  match (← slotAt index).current with
  | .ok value => cast index type value
  | .error reason => fault index reason

/-- Updates what a parameter holds in place, which must have the type `type`. -/
def update (type : ValueType) (index : Nat) (change : Value.OfType type → Value.OfType type) :
    ArgumentsM Unit := do
  let slot ← slotAt index
  let value ← get type index
  replace index (slot.hold (change value))

/-- Assigns a parameter that goes into the response. -/
def set (index : Nat) (value : Value) : ArgumentsM Unit := do
  match ← slotAt index with
  | .val _ => fault index .wrongWay
  | slot => replace index (slot.hold value)

/-- The values that `slots` gives the response, or the index of the first output without a value,
where the slots are counted from `index` on. -/
def responseFrom (index : Nat) : List Slot → Except Nat (List Value)
  | [] => .ok []
  | .val _ :: slots => responseFrom (index + 1) slots
  | .ref value :: slots | .out (some value) :: slots => do
      let values ← responseFrom (index + 1) slots
      pure (value :: values)
  | .out none :: _ => .error index

/-- The values for the response, in the order of the parameters, or the index of the first output
without a value. -/
def response (arguments : Arguments) : Except Nat (List Value) := responseFrom 0 arguments.slots

end Arguments

end Switchboard
