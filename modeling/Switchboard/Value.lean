import Switchboard.Bytes

/-!
# Values without a static type

`Value` is what codecs, argument slots and handlers pass to each other: a value that carries its
type along. `Value.type` is that type, a list having one type whatever its elements are.
`Embedding α` shows a Lean type `α` inside `Value`: `unwrap?` finds an `α` in exactly the values
that `wrap` makes.
-/

namespace Switchboard

/-- The types that a value can have. A `record` is a type of the host, known by its name. -/
inductive ValueType where
  | u8 | u16 | i32 | u32 | i64 | u64 | f64 | bool | string | bytes | list | pair | unit
  | record (name : String)
  deriving DecidableEq, Repr

/-- The text of an untyped value's type inside the names of lists and pairs. -/
private def untypedName : String := "alloc::boxed::Box<dyn core::any::Any + core::marker::Send>"

/-- The name of a type in messages. -/
def ValueType.name : ValueType → String
  | u8 => "u8"
  | u16 => "u16"
  | i32 => "i32"
  | u32 => "u32"
  | i64 => "i64"
  | u64 => "u64"
  | f64 => "f64"
  | bool => "bool"
  | string => "alloc::string::String"
  | bytes => "alloc::vec::Vec<u8>"
  | list => "alloc::vec::Vec<" ++ untypedName ++ ">"
  | pair => "(" ++ untypedName ++ ", " ++ untypedName ++ ")"
  | unit => "()"
  | record name => name

/-- A value together with its type. A floating-point number is kept as its bits, and a `record` of
the host as the list of its fields. -/
inductive Value where
  | u8 (n : UInt8)
  | u16 (n : UInt16)
  | i32 (n : Int32)
  | u32 (n : UInt32)
  | i64 (n : Int64)
  | u64 (n : UInt64)
  | f64 (bits : UInt64)
  | bool (b : Bool)
  | string (text : String)
  | bytes (bytes : Bytes)
  | list (items : List Value)
  | pair (first second : Value)
  | unit
  | record (name : String) (fields : List Value)

namespace Value

instance : Inhabited Value := ⟨unit⟩

/-- The type of a value. -/
def type : Value → ValueType
  | u8 _ => .u8
  | u16 _ => .u16
  | i32 _ => .i32
  | u32 _ => .u32
  | i64 _ => .i64
  | u64 _ => .u64
  | f64 _ => .f64
  | bool _ => .bool
  | string _ => .string
  | bytes _ => .bytes
  | list _ => .list
  | pair _ _ => .pair
  | unit => .unit
  | record name _ => .record name

/-- The values of one type. -/
abbrev OfType (type : ValueType) := { value : Value // value.type = type }

end Value

/-- `Embedding α` shows the values of `α` inside `Value`, all with one type. -/
structure Embedding (α : Type) where
  type : ValueType
  wrap : α → Value
  unwrap? : Value → Option α
  type_wrap (a : α) : (wrap a).type = type
  unwrap?_eq_some_iff (value : Value) (a : α) : unwrap? value = some a ↔ value = wrap a

namespace Embedding

variable {α : Type} (embedding : Embedding α)

@[simp]
theorem unwrap?_wrap (a : α) : embedding.unwrap? (embedding.wrap a) = some a :=
  (embedding.unwrap?_eq_some_iff _ _).2 rfl

/-- A value of another type holds no `α`. -/
theorem unwrap?_eq_none {value : Value} (h : value.type ≠ embedding.type) :
    embedding.unwrap? value = none := by
  cases hvalue : embedding.unwrap? value with
  | none => rfl
  | some a =>
    rw [(embedding.unwrap?_eq_some_iff value a).1 hvalue] at h
    exact absurd (embedding.type_wrap a) h

/-- Bytes as unsigned numbers. -/
def u8 : Embedding UInt8 where
  type := .u8
  wrap := .u8
  unwrap? | .u8 n => some n | _ => none
  type_wrap _ := rfl
  unwrap?_eq_some_iff value a := by cases value <;> simp

/-- Unsigned 16-bit numbers. -/
def u16 : Embedding UInt16 where
  type := .u16
  wrap := .u16
  unwrap? | .u16 n => some n | _ => none
  type_wrap _ := rfl
  unwrap?_eq_some_iff value a := by cases value <;> simp

/-- Signed 32-bit numbers. -/
def i32 : Embedding Int32 where
  type := .i32
  wrap := .i32
  unwrap? | .i32 n => some n | _ => none
  type_wrap _ := rfl
  unwrap?_eq_some_iff value a := by cases value <;> simp

/-- Unsigned 32-bit numbers. -/
def u32 : Embedding UInt32 where
  type := .u32
  wrap := .u32
  unwrap? | .u32 n => some n | _ => none
  type_wrap _ := rfl
  unwrap?_eq_some_iff value a := by cases value <;> simp

/-- Signed 64-bit numbers. -/
def i64 : Embedding Int64 where
  type := .i64
  wrap := .i64
  unwrap? | .i64 n => some n | _ => none
  type_wrap _ := rfl
  unwrap?_eq_some_iff value a := by cases value <;> simp

/-- Unsigned 64-bit numbers. -/
def u64 : Embedding UInt64 where
  type := .u64
  wrap := .u64
  unwrap? | .u64 n => some n | _ => none
  type_wrap _ := rfl
  unwrap?_eq_some_iff value a := by cases value <;> simp

/-- The bits of floating-point numbers. -/
def f64 : Embedding UInt64 where
  type := .f64
  wrap := .f64
  unwrap? | .f64 bits => some bits | _ => none
  type_wrap _ := rfl
  unwrap?_eq_some_iff value a := by cases value <;> simp

/-- Truth values. -/
def bool : Embedding Bool where
  type := .bool
  wrap := .bool
  unwrap? | .bool b => some b | _ => none
  type_wrap _ := rfl
  unwrap?_eq_some_iff value a := by cases value <;> simp

/-- Texts. -/
def string : Embedding String where
  type := .string
  wrap := .string
  unwrap? | .string text => some text | _ => none
  type_wrap _ := rfl
  unwrap?_eq_some_iff value a := by cases value <;> simp

/-- Strings of bytes. -/
def bytes : Embedding Bytes where
  type := .bytes
  wrap := .bytes
  unwrap? | .bytes bytes => some bytes | _ => none
  type_wrap _ := rfl
  unwrap?_eq_some_iff value a := by cases value <;> simp

/-- Lists of values of any types. -/
def list : Embedding (List Value) where
  type := .list
  wrap := .list
  unwrap? | .list items => some items | _ => none
  type_wrap _ := rfl
  unwrap?_eq_some_iff value a := by cases value <;> simp

/-- Pairs of values of any types. -/
def pair : Embedding (Value × Value) where
  type := .pair
  wrap values := .pair values.1 values.2
  unwrap? | .pair first second => some (first, second) | _ => none
  type_wrap _ := rfl
  unwrap?_eq_some_iff value a := by
    obtain ⟨first, second⟩ := a
    cases value <;> simp

/-- The value without content. -/
def unit : Embedding Unit where
  type := .unit
  wrap _ := .unit
  unwrap? | .unit => some () | _ => none
  type_wrap _ := rfl
  unwrap?_eq_some_iff value a := by cases value <;> simp

/-- The record type `name`, whose values have no fields. -/
def emptyRecord (name : String) : Embedding Unit where
  type := .record name
  wrap _ := .record name []
  unwrap? | .record found [] => if found = name then some () else none | _ => none
  type_wrap _ := rfl
  unwrap?_eq_some_iff value a := by
    cases value with
    | record found fields => cases fields <;> simp
    | _ => simp

end Embedding

end Switchboard
