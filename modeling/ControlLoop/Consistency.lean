import ControlLoop.Diff
import ControlLoop.Patch.Basic

/-!
# Consistency

A patch has taken effect if the body that the store returned holds what the
patch asked for. Fields that the patch does not mention are not looked at. Some
fields are known to vanish when they are patched to hold nothing, and of these a
difference between two falsy values does not count.
-/

set_option autoImplicit false

namespace ControlLoop

namespace Consistency

/-- Whether a difference counts, given the fields that are known to vanish. -/
def counts (known : List FieldPath) (item : DiffItem) : Bool :=
  !item.old.isFalsy || !item.new.isFalsy || !known.contains item.field

/-- The differences that count between a patch and the body that resulted from it. -/
def inconsistencies (patch : Patch) (resulting : Body) (known : List FieldPath) : Diff :=
  (patch.toJson.diff resulting .left).filter (counts known)

end Consistency

end ControlLoop
