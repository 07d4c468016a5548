import TypeTrace.Settings.LogLevel

/-!
# Events

What is reported while traces are aligned and calls are collected. Events are
values: they are computed from what was done and take no part in it.
-/

namespace TypeTrace

/-- A message with named data. -/
structure Event where
  level : LogLevel
  message : String
  data : List (String × String)
  deriving DecidableEq, Repr

end TypeTrace
