import ControlLoop.Patch.Merge

/-!
# The store

A store holds the body of one object, until the object is deleted, and the log
of the patches that were written to it. A write merges a patch and then drops
the collapsing fields that hold nothing. A store can be made to refuse writes;
a refused write, like a write to a deleted object, changes nothing.
-/

set_option autoImplicit false

namespace ControlLoop

/-- An object in memory with the log of its writes. -/
structure Store where
  /-- The body, until the object is deleted. -/
  object : Option Body
  /-- The patches written so far, the first one first. -/
  writes : List Patch := []
  /-- The fields that vanish rather than hold nothing. -/
  collapsing : List FieldPath := []
  /-- The reason for which writes are refused at present. -/
  failing : Option String := none

namespace Store

/-- A store of a body, with its collapsing fields. -/
def ofBody (body : Body) (collapsing : List FieldPath) : Store :=
  { object := some body, collapsing := collapsing }

/-- A value without those of the fields that hold nothing, looked at one after the other. -/
def collapse (fields : List FieldPath) (value : Json) : Json :=
  fields.foldl (fun v field => v.collapseEmpty field.keys) value

/-- Writes a patch. The result is the new body, or nothing if there is no object. -/
def patch (store : Store) (patch : Patch) : Except Error (Option Body) × Store :=
  match store.failing, store.object with
  | some reason, _ => (.error (.patch reason), store)
  | none, none => (.ok none, store)
  | none, some body =>
    let merged := collapse store.collapsing (body.merge patch.toJson)
    (.ok (some merged), { store with object := some merged, writes := store.writes ++ [patch] })

/-- The store without its object. -/
def delete (store : Store) : Store := { store with object := none }

/-- The store that refuses writes for a reason, or accepts them again. -/
def setFailing (store : Store) (reason : Option String) : Store := { store with failing := reason }

end Store

end ControlLoop
