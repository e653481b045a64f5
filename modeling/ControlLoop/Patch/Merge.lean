import ControlLoop.Patch.Basic

/-!
# Merging patches

Merging a patch into a value visits each field that the patch names. A null
removes the field, an object is merged into what the field holds and any other
value takes its place. Fields that the patch does not name stay as they are. A
value that is no object counts as one without fields when an object is merged
into it.
-/

set_option autoImplicit false

namespace ControlLoop

namespace Json

/-- The target after the patch. -/
def merge (target : Json) : (patch : Json) → Json
  | .obj keys change =>
    let fs := target.fields
    .object (Fields.collect (fs.keys.union keys) fun k =>
      if h : k.1 ∈ keys then
        if (change ⟨k.1, h⟩).isNull then none
        else some (merge ((fs.get? k.1).getD .null) (change ⟨k.1, h⟩))
      else fs.get? k.1)
  | .null => .null
  | .bool b => .bool b
  | .num n => .num n
  | .str s => .str s
  | .arr size item => .arr size item

/-- Whether the value is an array or an object with nothing in it. -/
def isEmptyContainer : Json → Bool
  | .arr size _ => size == 0
  | .obj keys _ => keys.isEmpty
  | _ => false

/-- The value without the field at a path of keys, if that field holds an empty container. -/
def collapseEmpty (value : Json) : List String → Json
  | [] => value
  | k :: ks =>
    match value.fields.get? k with
    | none => value
    | some child =>
      if ks.isEmpty then
        if child.isEmptyContainer then .object (value.fields.erase k) else value
      else .object (value.fields.insert k (child.collapseEmpty ks))

end Json

end ControlLoop
