import TypeTrace.Json.Record

/-!
# Log levels

The five levels of messages, in the order of their weight. A level is read from
its name in any case; `warning` is a second name of `warn`. Encoded values use
the lower-case name and nothing else.
-/

namespace TypeTrace

/-- The weight of a message. -/
inductive LogLevel where
  | trace
  | debug
  | info
  | warn
  | error
  deriving DecidableEq, Repr

namespace LogLevel

instance : Inhabited LogLevel := ⟨.warn⟩

/-- The lower-case name. -/
def name : LogLevel → String
  | .trace => "trace"
  | .debug => "debug"
  | .info => "info"
  | .warn => "warn"
  | .error => "error"

/-- The upper-case name, under which messages are recorded. -/
def label : LogLevel → String
  | .trace => "TRACE"
  | .debug => "DEBUG"
  | .info => "INFO"
  | .warn => "WARN"
  | .error => "ERROR"

/-- The level of a lower-case name. -/
def ofName? (s : String) : Option LogLevel :=
  [trace, debug, info, warn, error].find? fun l => l.name == s

/-- A name that no level has, in lower case. -/
structure Unknown where
  name : String
  deriving DecidableEq, Repr

def Unknown.message (u : Unknown) : String := "unknown log level '" ++ u.name ++ "'"

/-- Reads a level; only ASCII letters have a lower case here. -/
def parse (s : String) : Except Unknown LogLevel :=
  let lower := String.ofList (s.toList.map Char.toLower)
  if lower = "warning" then .ok .warn
  else match ofName? lower with
    | some l => .ok l
    | none => .error ⟨lower⟩

def toJson (l : LogLevel) : Json := .str l.name

def ofJson? (v : Json) : Option LogLevel := v.caseName?.bind ofName?

/-- Installs a level for the whole process. Only the first installation has an
effect, and the answer says whether this one was it. -/
def install (installed : Option LogLevel) (l : LogLevel) : Option LogLevel × Bool :=
  match installed with
  | none => (some l, true)
  | some present => (some present, false)

end LogLevel

end TypeTrace
