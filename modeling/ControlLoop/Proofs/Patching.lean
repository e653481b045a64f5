import ControlLoop.Patching
import ControlLoop.Proofs.World

/-!
# One write and its check

An empty patch is not written. Any other is handed to the patcher once, and what
is noted after that depends on the patcher's answer alone.
-/

set_option autoImplicit false

namespace ControlLoop

namespace Patcher

variable {σ : Type}

/-- What is noted about the answer to a patch. -/
def findings (known : List FieldPath) (patch : Patch) :
    (answer : Except Error (Option Body)) → List Notice
  | .ok none => [.objectGone]
  | .ok (some resulting) =>
    let found := Consistency.inconsistencies patch resulting known
    if found.isEmpty then [] else [.inconsistent found]
  | .error _ => []

/-- Only an inconsistent answer is warned about. -/
theorem warn_findings_iff (known : List FieldPath) (patch : Patch)
    (answer : Except Error (Option Body)) :
    (∃ notice ∈ findings known patch answer, notice.level = .warn) ↔
      ∃ resulting, answer = .ok (some resulting) ∧
        Consistency.inconsistencies patch resulting known ≠ [] := by
  cases answer with
  | error e => simp [findings]
  | ok resulting =>
    cases resulting with
    | none => simp [findings, Notice.level]
    | some resulting =>
      simp only [findings, List.isEmpty_iff]
      split
      · next hnone => simp [hnone]
      · next hsome => simp [hsome, Notice.level]

theorem patchAndCheck_empty (patcher : Patcher σ) (known : List FieldPath) {patch : Patch}
    (body : Body) (world : World σ) (h : patch.isEmpty = true) :
    patcher.patchAndCheck known patch body world = (.ok (), world) := by
  simp only [patchAndCheck, h, ↓reduceIte]
  rfl

/-- The result is the patcher's, but for the body that it answers with. -/
theorem patchAndCheck_nonempty (patcher : Patcher σ) (known : List FieldPath) {patch : Patch}
    (body : Body) (world : World σ) (h : patch.isEmpty = false) :
    patcher.patchAndCheck known patch body world =
      let (answer, after) := patcher patch body (world.noted [.patching patch])
      (answer.map fun _ => (), after.noted (findings known patch answer)) := by
  simp only [patchAndCheck, h, Bool.false_eq_true, ↓reduceIte, Attempt.bind_apply,
    Attempt.note_apply]
  cases patcher patch body (world.noted [.patching patch]) with
  | mk answer after =>
    cases answer with
    | error e => simp [findings, Except.map]
    | ok resulting =>
      cases resulting with
      | none => rfl
      | some resulting =>
        simp only [findings]
        split
        · simp [Except.map, Attempt.pure_apply]
        · rfl

end Patcher

end ControlLoop
