import ControlLoop.Body
import ControlLoop.Error
import ControlLoop.Json.Printer

/-!
# Patches

A patch says what is to change in an object. It holds fields of its own: a null
removes the field, an object changes the fields inside, and any other value
replaces what was there. A patch without fields asks for no change.
-/

set_option autoImplicit false

namespace ControlLoop

/-- An intended change of an object. -/
@[ext] structure Patch where
  fields : Fields Json

namespace Patch

/-- No change. -/
def empty : Patch := ⟨.empty⟩

/-- Whether no change is asked for. -/
def isEmpty (patch : Patch) : Bool := patch.fields.isEmpty

/-- The number of fields at the top. -/
def size (patch : Patch) : Nat := patch.fields.size

/-- The patch as a value. -/
def toJson (patch : Patch) : Json := .object patch.fields

/-- The patch on one line. -/
def render (patch : Patch) : String := patch.toJson.compact

/-- An object as the patch that it writes out. -/
def ofObject? (value : Json) : Option Patch := value.asObject?.map Patch.mk

/-- An object is a patch and null is the empty one; there are no others. -/
def ofJson (value : Json) : Except Error Patch :=
  match value with
  | .obj keys child => .ok ⟨⟨keys, child⟩⟩
  | .null => .ok empty
  | other => .error (.patch ("patch must be an object, got " ++ other.compact))

/-- Puts a value at a path of keys. On the way, whatever is no object becomes one. -/
def setKeys (fields : Fields Json) : List String → Json → Fields Json
  | [], _ => fields
  | [k], value => fields.insert k value
  | k :: ks, value =>
    let inner := ((fields.get? k).getD .null).fields
    fields.insert k (.object (setKeys inner ks value))

/-- Asks for a field to hold a value. There is nothing to set at the root. -/
def set (patch : Patch) (path : FieldPath) (value : Json) : Patch :=
  ⟨setKeys patch.fields path.keys value⟩

/-- Asks for a field to be removed. -/
def remove (patch : Patch) (path : FieldPath) : Patch := patch.set path .null

/-- What the patch holds at a field. Nothing is held at the root. -/
def get? (patch : Patch) (path : FieldPath) : Option Json :=
  if path.isRoot then none else patch.toJson.get? path.keys

end Patch

end ControlLoop
