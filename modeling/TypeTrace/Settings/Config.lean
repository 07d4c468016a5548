import TypeTrace.Json.Record
import TypeTrace.Settings.PythonVersion
import TypeTrace.Text.Utf8
import TypeTrace.Toml.Document

/-!
# Configuration

A configuration names the Python version whose traces are aligned and the id
under which calls at the top level of a module are recorded. Every setting has a
default. Configurations are read from TOML, and from JSON values of the same
shape. A section may be an array of its settings; in TOML that array may go on
after the last one, in JSON it may not.
-/

namespace TypeTrace

/-- The settings of a run. -/
structure Config where
  pythonVersion : PythonVersion
  moduleId : String
  deriving DecidableEq, Repr

/-! ## Failures -/

/-- Why a file could not be read. -/
inductive FileFault where
  | notFound
  | isDirectory
  | notUtf8
  deriving DecidableEq, Repr

/-- Why no configuration came out of a text or a file. -/
inductive ConfigError where
  | file (fault : FileFault)
  /-- The text is no TOML, or a setting has a value of the wrong kind. -/
  | malformed
  /-- The text of the version setting is no version. -/
  | pythonVersion (value : String)
  deriving DecidableEq, Repr

/-- The operating system's words for a fault. -/
def FileFault.message : FileFault → String
  | .notFound => "No such file or directory (os error 2)"
  | .isDirectory => "Is a directory (os error 21)"
  | .notUtf8 => "stream did not contain valid UTF-8"

/-- The text of a failure; a malformed text has none of its own. -/
def ConfigError.message? : ConfigError → Option String
  | .file fault => some ("IO error: " ++ fault.message)
  | .malformed => none
  | .pythonVersion value =>
    some ("invalid python version '" ++ value ++ "', expected 'major.minor'")

/-- Reads a version, with the refused text in the failure. -/
def PythonVersion.parse (s : String) : Except ConfigError PythonVersion :=
  match parse? s with
  | some v => .ok v
  | none => .error (.pythonVersion s)

namespace Config

instance : Inhabited Config := ⟨⟨⟨3, 7⟩, "module"⟩⟩

/-! ## Decoding -/

/-- The formats that configurations are written in. -/
inductive Format where
  | toml
  | json
  deriving DecidableEq, Repr

/-- The fields of a section, or a failure for a value that is no record. What stands
in a TOML array after the last field is skipped. -/
def members (format : Format) (names : List String) (v : Json) :
    Except ConfigError (List (String × Json)) :=
  match format, v with
  | .toml, .arr items => .ok (names.zip items)
  | _, v =>
    match Json.fields? names v with
    | some fields => .ok fields
    | none => .error .malformed

/-- The text of a setting, or a failure for any other value. -/
def text (v : Json) : Except ConfigError String :=
  match v with
  | .str s => .ok s
  | _ => .error .malformed

/-- Takes over the settings of one section; sections and settings are met in the
order of the document, and the first failure counts. -/
def takeSection (format : Format) (config : Config) (field : String × Json) :
    Except ConfigError Config := do
  if field.1 = "aligner" then
    (← members format ["python_version"] field.2).foldlM
      (fun config setting => do
        return { config with pythonVersion := ← PythonVersion.parse (← text setting.2) }) config
  else
    (← members format ["module_id"] field.2).foldlM
      (fun config setting => do return { config with moduleId := ← text setting.2 }) config

/-- The configuration that the document of a text describes. -/
def ofDocument (format : Format) (v : Json) : Except ConfigError Config := do
  (← members format ["aligner", "callgraph"] v).foldlM (takeSection format) default

/-- The configuration that a JSON value describes. -/
def ofJson (v : Json) : Except ConfigError Config := ofDocument .json v

/-- The document that describes a configuration. -/
def toJson (c : Config) : Json :=
  .obj [("aligner", .obj [("python_version", .str c.pythonVersion.display)]),
    ("callgraph", .obj [("module_id", .str c.moduleId)])]

/-- The configuration of a TOML text. -/
def ofToml (text : String) : Except ConfigError Config :=
  match Toml.parse? text with
  | some document => ofDocument .toml document
  | none => .error .malformed

/-! ## Files -/

/-- What stands at the path of a configuration file. -/
inductive Source where
  | missing
  | directory
  | file (bytes : List UInt8)

/-- The configuration of a file. -/
def load : Source → Except ConfigError Config
  | .missing => .error (.file .notFound)
  | .directory => .error (.file .isDirectory)
  | .file bytes =>
    match Text.Utf8.decode? bytes with
    | some cs => ofToml (String.ofList cs)
    | none => .error (.file .notUtf8)

/-- The configuration of a file, or the default one if nothing is there. -/
def loadOrDefault : Source → Except ConfigError Config
  | .missing => .ok default
  | source => load source

end Config

end TypeTrace
