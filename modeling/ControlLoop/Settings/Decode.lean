import ControlLoop.Config.Value
import ControlLoop.Settings.Basic

/-!
# Reading settings

Settings are read from a configuration value. Sections and fields that are not
given have their defaults, and unknown ones are ignored. A section is a table or
a list of its fields in order. Notations differ in two details: whether a list
may be longer than the section, and which value stands for nothing after a name.
-/

set_option autoImplicit false

namespace ControlLoop

/-- The details in which notations of settings differ. -/
structure ConfigNotation where
  /-- Whether a list that stands for a section may have items beyond its fields. -/
  surplus : Bool
  /-- Whether a value stands for nothing. -/
  isNothing : ConfigValue → Bool

namespace ConfigNotation

/-- In JSON null stands for nothing. -/
def json : ConfigNotation where
  surplus := false
  isNothing
    | .null => true
    | _ => false

/-- In TOML an empty table or list stands for nothing. -/
def toml : ConfigNotation where
  surplus := true
  isNothing
    | .table [] | .list [] => true
    | _ => false

/-- The entries of a section with the given fields. A moment has none of them. -/
def sectionEntries? (form : ConfigNotation) (names : List String) :
    ConfigValue → Option (List (String × ConfigValue))
  | .table entries => some entries
  | .list items =>
    if items.length ≤ names.length ∨ form.surplus = true then some (names.zip items) else none
  | .moment _ => some []
  | _ => none

end ConfigNotation

namespace ConfigValue

/-- A field of a section, read if it is given and otherwise its default. -/
def field? {α : Type} (entries : List (String × ConfigValue)) (name : String) (default : α)
    (read? : ConfigValue → Option α) : Option α :=
  match entries.lookup name with
  | some value => read? value
  | none => some default

/-- A text. -/
def text? : ConfigValue → Option String
  | .text s => some s
  | _ => none

/-- A number that is not negative and fits 64 bits. -/
def natural? : ConfigValue → Option Nat
  | .integer n => if 0 ≤ n ∧ n < Int.pow 2 64 then some n.toNat else none
  | _ => none

/-- A number, rounded to a double if it is an integer. -/
def double? : ConfigValue → Option Binary64
  | .integer n => some (.ofInt n)
  | .float x => some x
  | _ => none

/-- A list of items of one kind. -/
def list? {α : Type} (read? : ConfigValue → Option α) : ConfigValue → Option (List α)
  | .list items => items.mapM read?
  | _ => none

/-- A name, either alone or followed by nothing. -/
def name? (form : ConfigNotation) : ConfigValue → Option String
  | .text s => some s
  | .table [(key, value)] => if form.isNothing value then some key else none
  | _ => none

end ConfigValue

open ConfigValue

/-- Reads the settings of patching, sleeping and touching. -/
def EffectsSettings.ofConfig? (form : ConfigNotation) (value : ConfigValue) :
    Option EffectsSettings := do
  let entries ← form.sectionEntries? ["keepalive_secs", "known_inconsistencies"] value
  return {
    keepaliveSeconds := ← field? entries "keepalive_secs" default.keepaliveSeconds natural?
    knownInconsistencies := ← field? entries "known_inconsistencies"
      default.knownInconsistencies (list? fun v => (text? v).map FieldPath.parse) }

/-- Reads the settings of the backoff. -/
def BatchingSettings.ofConfig? (form : ConfigNotation) (value : ConfigValue) :
    Option BatchingSettings := do
  let entries ← form.sectionEntries? ["error_delays"] value
  return { errorDelays := ← field? entries "error_delays" default.errorDelays (list? double?) }

/-- Reads the settings of the marker. -/
def PersistenceSettings.ofConfig? (form : ConfigNotation) (value : ConfigValue) :
    Option PersistenceSettings := do
  let entries ← form.sectionEntries? ["progress_storage", "status_name", "annotations_prefix"] value
  return {
    place := ← field? entries "progress_storage" default.place
      fun v => (name? form v).bind MarkerPlace.ofName?
    statusName := ← field? entries "status_name" default.statusName text?
    annotationsPrefix := ← field? entries "annotations_prefix" default.annotationsPrefix text? }

/-- Reads settings. -/
def Settings.ofConfig? (form : ConfigNotation) (value : ConfigValue) : Option Settings := do
  let entries ← form.sectionEntries? ["effects", "batching", "persistence"] value
  return {
    effects := ← field? entries "effects" default.effects (EffectsSettings.ofConfig? form)
    batching := ← field? entries "batching" default.batching (BatchingSettings.ofConfig? form)
    persistence := ← field? entries "persistence" default.persistence
      (PersistenceSettings.ofConfig? form) }

end ControlLoop
