import ControlLoop.Proofs.Effects.Apply
import ControlLoop.Proofs.Watched

/-!
# What is written for a handler's patch

A patch that asks for something is written once and at once, whatever the delays
are, with the markers cleared in it. Merged into the body, it does at every place
apart from the markers what the handler's own patch would do. The exception is a
patch that removes or replaces an ancestor of a marker, as a whole: the other
places below that ancestor survive it.
-/

set_option autoImplicit false

namespace ControlLoop

namespace Effects

variable {σ : Type}

/-- A patcher is handed one patch, at the instant at which the effects are applied. Its merge into
the body agrees at a place apart from the markers with that of the handler's patch, unless the body
holds something at the place and clearing the markers restores the place. -/
theorem handed_patch_agrees_iff (patcher : Patcher σ) (settings : Settings) (body : Body)
    (patch : Patch) (delays : DelaySet) (wakeup : Option Wakeup)
    (world : World (Watched PatcherCall σ)) (h : patch.isEmpty = false) :
    ∃ handed : Patch,
      ((ofSettings patcher.watched settings).apply body patch delays wakeup world).2.env.seen =
        world.env.seen ++ [⟨handed, body, world.clock.now⟩] ∧
      ∀ place : FieldPath, (∀ marker ∈ settings.persistence.markerFields, marker.Apart place) →
        ((body.merge handed.toJson).get? place.keys = (body.merge patch.toJson).get? place.keys ↔
          ¬ (Marker.Restores settings.persistence.markerFields body patch place ∧
            Body.contains body place = true)) := by
  refine ⟨(ofSettings patcher.watched settings).outgoing body patch, ?_, fun place hplace => ?_⟩
  · rw [apply_nonempty _ _ _ _ _ h,
      Patcher.patchAndCheck_nonempty _ _ _ _ (isEmpty_outgoing _ body h)]
    exact Patcher.seen_watched _ _ _ _
  · rw [outgoing, h]
    exact Marker.get?_merge_touch_eq_iff _ body body patch hplace

/-- A body with the default marker and a phase under its status. -/
def readyBody : Body :=
  .objectOfList [("status", .objectOfList
    [("phase", .str "Ready"), ("reconciler", .objectOfList [("dummy", .str "old")])])]

/-- A patch that removes the status and asks for two replicas. -/
def statusRemoval : Patch :=
  ⟨.ofList [("spec", .objectOfList [("replicas", .num (.integer 2))]), ("status", .null)]⟩

/-- A world in which no patcher was called yet. -/
def unwatchedWorld : World (Watched PatcherCall Unit) :=
  { clock := .start, stamp := fun n => toString n, env := ⟨(), []⟩ }

/-- The replicas that the patch asks for are written along with the cleared marker. -/
theorem handed_statusRemoval_agrees :
    statusRemoval.isEmpty = false ∧
    (∀ marker ∈ Settings.default.persistence.markerFields, marker.Apart ⟨["spec", "replicas"]⟩) ∧
    ∃ handed : Patch,
      ((ofSettings (Patcher.watched fun _ _ => pure none) Settings.default).apply readyBody
        statusRemoval .empty none unwatchedWorld).2.env.seen = [⟨handed, readyBody, 0⟩] ∧
      (Json.merge readyBody handed.toJson).get? ["spec", "replicas"] =
        (Json.merge readyBody statusRemoval.toJson).get? ["spec", "replicas"] := by
  have hwrite : statusRemoval.isEmpty = false := by decide
  have hapart : ∀ marker ∈ Settings.default.persistence.markerFields,
      marker.Apart ⟨["spec", "replicas"]⟩ := by decide
  obtain ⟨handed, hseen, hagree⟩ := handed_patch_agrees_iff (fun _ _ => pure none) Settings.default
    readyBody statusRemoval .empty none unwatchedWorld hwrite
  refine ⟨hwrite, hapart, handed, hseen, (hagree ⟨["spec", "replicas"]⟩ hapart).2 ?_⟩
  rintro ⟨-, hcontains⟩
  exact absurd hcontains (by decide)

/-- A removal of the status does not remove the phase below it: the cleared marker takes the
removal's place in the patch that is written. -/
theorem statusRemoval_restores_phase :
    statusRemoval.isEmpty = false ∧
    (∀ marker ∈ Settings.default.persistence.markerFields, marker.Apart ⟨["status", "phase"]⟩) ∧
    ∃ handed : Patch,
      ((ofSettings (Patcher.watched fun _ _ => pure none) Settings.default).apply readyBody
        statusRemoval .empty none unwatchedWorld).2.env.seen = [⟨handed, readyBody, 0⟩] ∧
      (Json.merge readyBody handed.toJson).get? ["status", "phase"] = some (.str "Ready") ∧
      (Json.merge readyBody statusRemoval.toJson).get? ["status", "phase"] = none := by
  refine ⟨by decide, by decide, Marker.touch Settings.default.persistence.markerFields readyBody
    statusRemoval none, rfl, by decide +kernel, by decide⟩

end Effects

end ControlLoop
