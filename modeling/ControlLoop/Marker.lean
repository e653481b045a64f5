import ControlLoop.Patch.Basic

/-!
# Markers

A marker is a field that means nothing for the object itself. To touch an
object is to write a fresh text to its markers, which is seen as a change of the
object like any other. The marker lives under `status`, in an annotation, or in
both places.
-/

set_option autoImplicit false

namespace ControlLoop

namespace Marker

/-- The marker under `status`, below a name. -/
def statusField (name : String) : FieldPath := ⟨["status", name, "dummy"]⟩

/-- The marker among the annotations, by its key's domain. -/
def annotationField (domain : String) : FieldPath :=
  ⟨["metadata", "annotations", domain ++ "/touch-dummy"]⟩

/-- Asks for one marker to hold a text, or to be absent, unless the body has it so already. A null
counts as absent. -/
def touchField (body : Body) (text : Option String) (patch : Patch) (field : FieldPath) : Patch :=
  let current := (Body.at? body field).filter fun value => !value.isNull
  let wanted := text.map Json.str
  if current = wanted then patch else patch.set field (wanted.getD .null)

/-- Asks for all the markers to hold a text, or to be absent. -/
def touch (fields : List FieldPath) (body : Body) (patch : Patch) (text : Option String) : Patch :=
  fields.foldl (touchField body text) patch

end Marker

end ControlLoop
