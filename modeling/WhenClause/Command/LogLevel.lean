import WhenClause.Text.Basic

/-!
# Log levels

How much a run reports about itself, by name. Names are read in any case.
-/

namespace WhenClause

/-- A level, from the most to the least talkative. -/
inductive LogLevel where
  | trace
  | debug
  | info
  | warn
  | error
  deriving DecidableEq, Repr

/-- A name of no level. -/
structure UnknownLevel where
  name : Text
  deriving DecidableEq, Repr

/-- The sentence about an unknown level. -/
def UnknownLevel.message (e : UnknownLevel) : String :=
  "unknown log level '" ++ String.ofList e.name ++
    "', expected one of: trace, debug, info, warn, error"

namespace LogLevel

/-- The level of a run that asks for none. -/
def default : LogLevel := warn

/-- The name of a level. -/
def name : LogLevel → String
  | trace => "trace"
  | debug => "debug"
  | info  => "info"
  | warn  => "warn"
  | error => "error"

/-- The level of a name; a warning has a second one. -/
def ofName (name : Text) : Except UnknownLevel LogLevel :=
  match String.ofList name.lower with
  | "trace"   => .ok trace
  | "debug"   => .ok debug
  | "info"    => .ok info
  | "warn"    => .ok warn
  | "warning" => .ok warn
  | "error"   => .ok error
  | _         => .error ⟨name⟩

theorem ofName_name (l : LogLevel) : ofName l.name.toList = .ok l := by
  cases l <;> rfl

end LogLevel

end WhenClause
