import ControlLoop.Error
import ControlLoop.Settings.Decode
import ControlLoop.Toml.Document
import ControlLoop.Toml.Printer

/-!
# Settings files

Settings are kept in a TOML file. A file that does not exist stands for the
defaults. Rendered settings name every section and every field.
-/

set_option autoImplicit false

namespace ControlLoop

/-- What is found at the place of a file. -/
inductive FileContent where
  | missing
  | unreadable (reason : String)
  | bytes (data : ByteArray)

namespace FileContent

/-- The text of a file. A missing file is an error. -/
def text : FileContent → Except Error String
  | missing => .error (.file "no such file")
  | unreadable reason => .error (.file reason)
  | bytes data =>
    match String.fromUTF8? data with
    | some s => .ok s
    | none => .error (.file "the file is not valid UTF-8")

end FileContent

namespace Settings

/-- Reads settings from a TOML text. -/
def ofToml (text : String) : Except Error Settings :=
  match Toml.parse? text with
  | none => .error (.config "the text is not TOML")
  | some value =>
    match ofConfig? .toml value with
    | none => .error (.config "a setting has the wrong type")
    | some settings => .ok settings

/-- Reads settings from a JSON value. -/
def ofJson (value : Json) : Except Error Settings :=
  match ofConfig? .json (.ofJson value) with
  | none => .error (.json "a setting has the wrong type")
  | some settings => .ok settings

/-- Loads settings from a file. -/
def load (file : FileContent) : Except Error Settings :=
  match file with
  | .missing => .ok .default
  | file => file.text >>= ofToml

/-- The sections of the settings. -/
def toSections (s : Settings) : List Toml.SectionText :=
  [("effects",
      [("keepalive_secs", .integer s.effects.keepaliveSeconds),
        ("known_inconsistencies",
          .list (s.effects.knownInconsistencies.map fun p => .text p.dotted))]),
    ("batching", [("error_delays", .list (s.batching.errorDelays.map .float))]),
    ("persistence",
      [("progress_storage", .text s.persistence.place.name),
        ("status_name", .text s.persistence.statusName),
        ("annotations_prefix", .text s.persistence.annotationsPrefix)])]

/-- The settings as TOML. Settings that cannot be written give an empty text. -/
def toToml (s : Settings) : String := (Toml.render? s.toSections).getD ""

end Settings

end ControlLoop
