import ControlLoop.Consistency
import ControlLoop.World

/-!
# Patching

A patcher writes patches to where objects are kept. After each write the body
that came back is compared with the patch. Differences are noted and are no
failure; an empty patch is not written at all.
-/

set_option autoImplicit false

namespace ControlLoop

/-- Writes a patch for an object with the given body. The answer is the body after the write, or
nothing if there is no such object. -/
abbrev Patcher (σ : Type) := Patch → Body → Attempt σ (Option Body)

/-- Writes a patch, unless it is empty, and notes where the body that came back differs from it. -/
def Patcher.patchAndCheck {σ : Type} (patcher : Patcher σ) (known : List FieldPath)
    (patch : Patch) (body : Body) : Attempt σ Unit := do
  if patch.isEmpty then return ()
  Attempt.note (.patching patch)
  match ← patcher patch body with
  | none => Attempt.note .objectGone
  | some resulting =>
    let found := Consistency.inconsistencies patch resulting known
    if found.isEmpty then return ()
    else Attempt.note (.inconsistent found)

end ControlLoop
