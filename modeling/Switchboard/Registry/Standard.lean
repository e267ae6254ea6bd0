import Switchboard.Codec.Product
import Switchboard.Codec.Standard
import Switchboard.Registry.Basic

/-!
# The standard registry

`Registry.registerStandard` gives the standard codecs their names: the entries `u8`, `bool`, `i32`,
`u32`, `i64`, `u64`, `f64`, `String` and `bytes`, and the factory `Vec` for lists.
-/

namespace Switchboard

/-- The factory of lists, which builds a list codec out of the codec of the elements. -/
def Factory.list : Factory where
  arity := 1
  build arguments := (Codec.list (arguments.headD (Codec.unit.erase .unit))).erase .list

namespace Registry

/-- The standard codecs under their names. -/
def standardEntries : List (String × ValueCodec) :=
  [("u8", (Codec.word UInt8).erase .u8),
    ("bool", Codec.bool.erase .bool),
    ("i32", (Codec.word Int32).erase .i32),
    ("u32", (Codec.word UInt32).erase .u32),
    ("i64", (Codec.word Int64).erase .i64),
    ("u64", (Codec.word UInt64).erase .u64),
    ("f64", (Codec.word UInt64).erase .f64),
    ("String", Codec.string.erase .string),
    ("bytes", Codec.bytes.erase .bytes)]

/-- Registers the standard codecs and the factory of lists. -/
def registerStandard (registry : Registry) : Registry :=
  (standardEntries.foldl (fun registry entry => registry.register (.base entry.1) entry.2)
    registry).registerGeneric "Vec" .list

/-- The registry that holds the standard codecs and nothing else. -/
def standard : Registry := registerStandard empty

end Registry

end Switchboard
