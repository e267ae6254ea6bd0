/-!
# The log

Lookups, compilations and calls report what they did as `LogEvent`s. A result together with the
events on the way to it is a `Logged` result.
-/

namespace Switchboard

/-- How much attention an event asks for. -/
inductive LogLevel where
  | trace
  | debug
  | warn
  deriving DecidableEq, Repr

/-- An event: what happened, and the details as texts with their names. -/
structure LogEvent where
  level : LogLevel
  message : String
  fields : List (String × String)
  deriving DecidableEq, Repr

/-- A result and the events on the way to it, in the order in which they happened. -/
structure Logged (α : Type) where
  value : α
  log : List LogEvent

end Switchboard
