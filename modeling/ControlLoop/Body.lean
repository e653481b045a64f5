import ControlLoop.FieldPath
import ControlLoop.Json.Basic

/-!
# Bodies

The body of an object is its whole persisted state. Its name and namespace, if
it has them, are texts under `metadata`.
-/

set_option autoImplicit false

namespace ControlLoop

/-- The persisted state of an object. -/
abbrev Body := Json

namespace Body

/-- The value of a field. -/
def at? (body : Body) (path : FieldPath) : Option Json := body.get? path.keys

/-- Whether a field exists, be it as null. -/
def contains (body : Body) (path : FieldPath) : Bool := (at? body path).isSome

/-- The metadata, if they are an object. -/
def metadata? (body : Body) : Option (Fields Json) :=
  (body.fields.get? "metadata").bind Json.asObject?

/-- The name of the object. -/
def name? (body : Body) : Option String :=
  ((metadata? body).bind (·.get? "name")).bind Json.asString?

/-- The namespace of the object. -/
def namespace? (body : Body) : Option String :=
  ((metadata? body).bind (·.get? "namespace")).bind Json.asString?

end Body

end ControlLoop
