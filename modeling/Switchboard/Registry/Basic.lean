import Switchboard.Codec.Basic
import Switchboard.Log
import Switchboard.TypeExpr

/-!
# The codec registry

A `Registry` gives codecs to types: an entry gives one type its codec, and a factory gives every
instance of a parameterised type the codec that it builds out of the codecs of the type arguments.
`Registry.lookup` prefers entries, builds the inner codecs first and remembers each `Build`, so that
a type is built once. Every registration forgets the builds, because they may contain a codec that
is no longer the one registered.
-/

namespace Switchboard

/-- Why there is no codec for a type. -/
inductive LookupError where
  | notRegistered (type : TypeExpr)
  | unresolvedGeneric (type : TypeExpr)
  | notEncodable (type : TypeExpr)
  | arity (type : TypeExpr) (expected supplied : Nat)
  deriving DecidableEq

/-- The text of a failed lookup. -/
def LookupError.message : LookupError → String
  | notRegistered type => "no codec registered for `" ++ type.display ++ "`"
  | unresolvedGeneric type =>
      "cannot pick a codec for unresolved generic type `" ++ type.display ++ "`"
  | notEncodable type => "`" ++ type.display ++ "` has no codec"
  | arity type expected supplied =>
      "codec for `" ++ type.display ++ "` takes " ++
        s!"{expected} type arguments, {supplied} supplied"

/-- A `Factory` builds the codec of a type out of the codecs of its type arguments. It is only asked
to when there are `arity` of them. -/
structure Factory where
  arity : Nat
  build : List ValueCodec → ValueCodec

/-- A codec that a factory built, with what it was built for and out of. -/
structure Build where
  type : TypeExpr
  arguments : List ValueCodec
  codec : ValueCodec

/-- The event that reports a build. -/
def Build.event (build : Build) : LogEvent where
  level := .trace
  message := "built codec"
  fields := [("ty", build.type.display), ("value", build.codec.valueType.name)]

/-- The entries, the factories by the name of their type, both with the newest first, and the
builds since the last registration, with the oldest first. -/
structure Registry where
  entries : List (TypeExpr × ValueCodec)
  factories : List (String × Factory)
  builds : List Build

/-- An action that looks codecs up, and may add to the builds even when it fails. -/
abbrev LookupM := EStateM LookupError Registry

namespace Registry

/-- The registry without entries and factories. -/
def empty : Registry := ⟨[], [], []⟩

instance : Inhabited Registry := ⟨empty⟩

/-- Gives `type` the codec `codec`, instead of any that it had. -/
def register (registry : Registry) (type : TypeExpr) (codec : ValueCodec) : Registry where
  entries := (type, codec) :: registry.entries
  factories := registry.factories
  builds := []

/-- Gives the instances of the type named `name` the codecs that `factory` builds. -/
def registerGeneric (registry : Registry) (name : String) (factory : Factory) : Registry where
  entries := registry.entries
  factories := (name, factory) :: registry.factories
  builds := []

/-- The codec that `type` was built, if it was. -/
def built? (registry : Registry) (type : TypeExpr) : Option ValueCodec :=
  (registry.builds.find? fun build => build.type = type).map Build.codec

/-- The codec that `type` has without a new build. -/
def known? (registry : Registry) (type : TypeExpr) : Option ValueCodec :=
  registry.entries.lookup type <|> registry.built? type

/-- Answers with the codec that `type` is known to have, and otherwise as `unknown` does. -/
def orKnown (type : TypeExpr) (unknown : LookupM ValueCodec) : LookupM ValueCodec := do
  match (← get).known? type with
  | some codec => pure codec
  | none => unknown

/-- The factory for the type `name` with the arguments `args`, whose number must be right. -/
def factoryFor (name : String) (args : List TypeExpr) : LookupM Factory := do
  match (← get).factories.lookup name with
  | none => throw (.notRegistered (.named name args))
  | some factory =>
      if factory.arity = args.length then pure factory
      else throw (.arity (.named name args) factory.arity args.length)

/-- Builds the codec of a type and remembers it. -/
def build (factory : Factory) (type : TypeExpr) (arguments : List ValueCodec) :
    LookupM ValueCodec := do
  let codec := factory.build arguments
  modify fun registry =>
    { registry with builds := registry.builds ++ [⟨type, arguments, codec⟩] }
  pure codec

mutual
/-- `find type` is the codec of `type`: the one it is known to have, or else one built out of the
codecs of its arguments, which are found from left to right. -/
def find : TypeExpr → LookupM ValueCodec
  | .void => orKnown .void (throw (.notEncodable .void))
  | .pending result => orKnown (.pending result) (throw (.notEncodable (.pending result)))
  | .generic name => orKnown (.generic name) (throw (.unresolvedGeneric (.generic name)))
  | .named name args => orKnown (.named name args) do
      let factory ← factoryFor name args
      let arguments ← findAll args
      build factory (.named name args) arguments

/-- `findAll types` finds the codecs of the types of a list, from left to right. -/
def findAll : List TypeExpr → LookupM (List ValueCodec)
  | [] => pure []
  | type :: types => do
      let codec ← find type
      let codecs ← findAll types
      pure (codec :: codecs)
end

/-- The builds that `after` has in addition to `before`, when it came about by lookups alone. -/
def newBuilds (before after : Registry) : List Build := after.builds.drop before.builds.length

/-- Looks up the codec of `type`, and reports the builds that this took. -/
def lookup (type : TypeExpr) : StateM Registry (Logged (Except LookupError ValueCodec)) :=
  fun registry =>
    match find type registry with
    | .ok codec after => (⟨.ok codec, (newBuilds registry after).map Build.event⟩, after)
    | .error error after => (⟨.error error, (newBuilds registry after).map Build.event⟩, after)

/-- Whether `type` has a codec. The lookup that finds out is an ordinary one. -/
def contains (type : TypeExpr) : StateM Registry (Logged Bool) := do
  let ⟨result, log⟩ ← lookup type
  pure ⟨result.isOk, log⟩

end Registry

end Switchboard
