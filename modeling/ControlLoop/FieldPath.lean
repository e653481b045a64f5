/-!
# Field paths

A path names a field inside an object by the keys that lead to it. In dotted
notation the keys are joined by dots; reading it drops empty keys, so it is
faithful for keys that are neither empty nor hold a dot.
-/

set_option autoImplicit false

namespace ControlLoop

/-- The keys from the root to a field. -/
structure FieldPath where
  keys : List String
deriving DecidableEq

namespace FieldPath

/-- The path of the whole object. -/
def root : FieldPath := ⟨[]⟩

/-- Whether the path names the whole object. -/
def isRoot (path : FieldPath) : Bool := path.keys.isEmpty

/-- The path one key further. -/
def child (path : FieldPath) (key : String) : FieldPath := ⟨path.keys ++ [key]⟩

/-- What stands between the dots of a text. -/
def segments : List Char → List (List Char)
  | [] => [[]]
  | c :: rest =>
    if c = '.' then [] :: segments rest
    else
      match segments rest with
      | first :: others => (c :: first) :: others
      | [] => [[c]]

/-- Reads dotted notation. -/
def parse (dotted : String) : FieldPath :=
  ⟨((segments dotted.toList).filter fun s => !s.isEmpty).map String.ofList⟩

/-- Dotted notation. -/
def dotted (path : FieldPath) : String := ".".intercalate path.keys

end FieldPath

end ControlLoop
