import ControlLoop.Json.Basic

/-!
# Configuration values

The values that a configuration may hold, whichever notation it was written in.
-/

set_option autoImplicit false

namespace ControlLoop

/-- A value in a configuration. -/
inductive ConfigValue where
  | null
  | boolean (b : Bool)
  | integer (n : Int)
  | float (x : Binary64)
  | text (s : String)
  /-- A date, a time or both, as written. -/
  | moment (written : String)
  | list (items : List ConfigValue)
  | table (entries : List (String × ConfigValue))

namespace ConfigValue

instance : Inhabited ConfigValue := ⟨.null⟩

/-- A JSON value as a configuration value. -/
def ofJson : Json → ConfigValue
  | .null => .null
  | .bool b => .boolean b
  | .num (.integer n) => .integer n
  | .num (.double x) => .float (.finite x)
  | .str s => .text s
  | .arr _ item => .list (List.ofFn fun i => ofJson (item i))
  | .obj keys value => .table (keys.members.map fun k => (k.1, ofJson (value k)))

end ConfigValue

end ControlLoop
