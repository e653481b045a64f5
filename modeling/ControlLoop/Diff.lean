import ControlLoop.FieldPath
import ControlLoop.Json.Printer

/-!
# Differences

The difference of two values is a list of fields that hold different things.
A field that is absent and one that holds null are alike. Objects are compared
field by field, and a scope says whether the fields of one side only take part.
-/

set_option autoImplicit false

namespace ControlLoop

/-- What became of a field. -/
inductive DiffOperation where
  | add
  | change
  | remove
deriving DecidableEq, Repr

/-- The text of an operation. -/
def DiffOperation.text : DiffOperation → String
  | add => "add"
  | change => "change"
  | remove => "remove"

/-- What became of a field that held one value and now holds another. -/
def DiffOperation.ofValues (old new : Json) : DiffOperation :=
  if old.isNull then add else if new.isNull then remove else change

/-- The side whose own fields take part in a comparison. -/
inductive DiffScope where
  | full
  | left
  | right
deriving DecidableEq, Repr

namespace DiffScope

/-- Whether fields of the left side alone take part. -/
def includesLeft : DiffScope → Bool
  | full | left => true
  | right => false

/-- Whether fields of the right side alone take part. -/
def includesRight : DiffScope → Bool
  | full | right => true
  | left => false

end DiffScope

/-- A field that differs. What is absent is null. -/
structure DiffItem where
  operation : DiffOperation
  field : FieldPath
  old : Json
  new : Json
deriving DecidableEq

namespace DiffItem

/-- An item in round brackets. -/
def render (item : DiffItem) : String :=
  let parts := [item.operation.text, item.field.dotted, item.old.compact, item.new.compact]
  "(" ++ ", ".intercalate parts ++ ")"

/-- An item as a JSON object, in the order of its parts. -/
def renderJson (item : DiffItem) : String :=
  let parts := [("operation", Json.quote item.operation.text),
    ("field", Json.quote item.field.dotted), ("old", item.old.compact), ("new", item.new.compact)]
  "\x7b" ++ ",".intercalate (parts.map fun part => Json.quote part.1 ++ ":" ++ part.2) ++ "\x7d"

end DiffItem

/-- The fields that differ. -/
abbrev Diff := List DiffItem

namespace Diff

/-- A list in square brackets. -/
def render (diff : Diff) : String := "[" ++ ", ".intercalate (diff.map DiffItem.render) ++ "]"

/-- A difference as a JSON array. -/
def renderJson (diff : Diff) : String :=
  "[" ++ ",".intercalate (diff.map DiffItem.renderJson) ++ "]"

/-- Two values compared as a whole. -/
def whole (path : FieldPath) (old new : Json) : Diff :=
  if old == new then [] else [⟨.ofValues old new, path, old, new⟩]

/-- Two values compared below a path. Fields of the right side alone come first, then those of the
left side alone, then the common ones. -/
def between (scope : DiffScope) (path : FieldPath) : (old new : Json) → Diff
  | .obj ks left, .obj js right =>
    let rightOnly := js.members.flatMap fun k =>
      if k.1 ∈ ks then [] else whole (path.child k.1) .null (right k)
    let leftOnly := ks.members.flatMap fun k =>
      if k.1 ∈ js then [] else whole (path.child k.1) (left k) .null
    let common := ks.members.flatMap fun k =>
      if h : k.1 ∈ js then between scope (path.child k.1) (left k) (right ⟨k.1, h⟩) else []
    (if scope.includesRight then rightOnly else []) ++
      (if scope.includesLeft then leftOnly else []) ++ common
  | old, new => whole path old new

end Diff

namespace Json

/-- The fields in which two values differ. -/
def diff (old new : Json) (scope : DiffScope) : Diff := Diff.between scope .root old new

/-- Null, false, zero and whatever has nothing in it. -/
def isFalsy : Json → Bool
  | .null => true
  | .bool b => !b
  | .num (.integer n) => n == 0
  | .num (.double x) => x.isZero
  | .str s => s.isEmpty
  | .arr size _ => size == 0
  | .obj keys _ => keys.isEmpty

end Json

end ControlLoop
