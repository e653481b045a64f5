import ControlLoop.Marker
import ControlLoop.Proofs.Patch.Override

/-!
# Clearing markers

To clear the markers is to ask for each of them that the body holds to be
removed. Apart from the markers the patch then does what it did before, unless
it overrode a place from above on the way to one of them: setting the marker put
an object in the stead of what was there, and the place comes back.
-/

set_option autoImplicit false

namespace ControlLoop

namespace Marker

/-- Whether a body holds something at a marker. Null is nothing. -/
def Held (body : Body) (marker : FieldPath) : Prop :=
  ∃ value, Body.at? body marker = some value ∧ value.isNull = false

theorem touch_none_cons_of_held {body : Body} {marker : FieldPath} (markers : List FieldPath)
    (patch : Patch) (h : Held body marker) :
    touch (marker :: markers) body patch none =
      touch markers body (patch.set marker .null) none := by
  obtain ⟨value, hat, hvalue⟩ := h
  simp [touch, touchField, hat, hvalue]

theorem touch_none_cons_of_not_held {body : Body} {marker : FieldPath} (markers : List FieldPath)
    (patch : Patch) (h : ¬ Held body marker) :
    touch (marker :: markers) body patch none = touch markers body patch none := by
  have hfilter : (Body.at? body marker).filter (fun value => !value.isNull) = none := by
    rw [Option.filter_eq_none_iff]
    intro value hat hvalue
    exact h ⟨value, hat, by simpa using hvalue⟩
  simp [touch, touchField, hfilter]

/-- Clearing never makes a patch empty. -/
theorem isEmpty_touch_none (markers : List FieldPath) (body : Body) {patch : Patch}
    (h : patch.isEmpty = false) : (touch markers body patch none).isEmpty = false := by
  induction markers generalizing patch with
  | nil => exact h
  | cons marker markers ih =>
    by_cases hheld : Held body marker
    · rw [touch_none_cons_of_held markers patch hheld]
      exact ih (Patch.isEmpty_set marker .null h)
    · rw [touch_none_cons_of_not_held markers patch hheld]
      exact ih h

/-- Clearing gives a place back that the patch removed or replaced: on the way to a marker that the
body holds, the patch overrides the place. -/
def Restores (markers : List FieldPath) (body : Body) (patch : Patch) (place : FieldPath) : Prop :=
  ∃ marker ∈ markers, Held body marker ∧ patch.toJson.Overrides marker place

/-- The places that come back are those that the first marker brings back and those that the others
do after it. -/
theorem restores_cons {marker : FieldPath} {markers : List FieldPath} {body : Body} {patch : Patch}
    {place : FieldPath} (hplace : marker.Apart place) (hheld : Held body marker) :
    Restores (marker :: markers) body patch place ↔
      patch.toJson.Overrides marker place ∨
        Restores markers body (patch.set marker .null) place := by
  constructor
  · rintro ⟨m, hm, hbody, hover⟩
    rcases List.mem_cons.1 hm with rfl | hm
    · exact Or.inl hover
    · exact (hover.set_or .null hplace).imp_right fun hset => ⟨m, hm, hbody, hset⟩
  · rintro (hover | ⟨m, hm, hbody, hover⟩)
    · exact ⟨marker, List.mem_cons_self, hheld, hover⟩
    · exact ⟨m, List.mem_cons_of_mem _ hm, hbody, hover.of_set .null hplace⟩

theorem restores_cons_of_not_held {marker : FieldPath} {markers : List FieldPath} {body : Body}
    {patch : Patch} {place : FieldPath} (h : ¬ Held body marker) :
    Restores (marker :: markers) body patch place ↔ Restores markers body patch place := by
  simp [Restores, h]

section Merged

variable (markers : List FieldPath) (body target : Body) (patch : Patch) {place : FieldPath}
  (hplace : ∀ marker ∈ markers, marker.Apart place)

include hplace

/-- A place that does not come back is merged as if nothing were cleared. -/
theorem get?_merge_touch_of_not_restores (h : ¬ Restores markers body patch place) :
    (target.merge (touch markers body patch none).toJson).get? place.keys =
      (target.merge patch.toJson).get? place.keys := by
  induction markers generalizing patch with
  | nil => rfl
  | cons marker markers ih =>
    have hfirst := hplace marker List.mem_cons_self
    have hrest := fun m hm => hplace m (List.mem_cons_of_mem _ hm)
    by_cases hheld : Held body marker
    · rw [restores_cons hfirst hheld, not_or] at h
      rw [touch_none_cons_of_held markers patch hheld, ih _ hrest h.2]
      exact Json.get?_merge_setKeys_of_not_overrides target patch.fields .null hfirst h.1
    · rw [restores_cons_of_not_held hheld] at h
      rw [touch_none_cons_of_not_held markers patch hheld]
      exact ih _ hrest h

/-- A place that comes back holds what the target held there. -/
theorem get?_merge_touch_of_restores (h : Restores markers body patch place) :
    (target.merge (touch markers body patch none).toJson).get? place.keys =
      target.get? place.keys := by
  induction markers generalizing patch with
  | nil =>
    obtain ⟨m, hm, -⟩ := h
    cases hm
  | cons marker markers ih =>
    have hfirst := hplace marker List.mem_cons_self
    have hrest := fun m hm => hplace m (List.mem_cons_of_mem _ hm)
    by_cases hheld : Held body marker
    · rw [touch_none_cons_of_held markers patch hheld]
      by_cases hset : Restores markers body (patch.set marker .null) place
      · exact ih _ hrest hset
      · have hover := ((restores_cons hfirst hheld).1 h).resolve_right hset
        rw [get?_merge_touch_of_not_restores markers body target _ hrest hset]
        exact Json.get?_merge_setKeys_of_overrides target patch.fields .null hfirst hover
    · rw [restores_cons_of_not_held hheld] at h
      rw [touch_none_cons_of_not_held markers patch hheld]
      exact ih _ hrest h

/-- With the markers cleared a merge does at a place what it did before, unless the place comes back
and there is something to come back. -/
theorem get?_merge_touch_eq_iff :
    (target.merge (touch markers body patch none).toJson).get? place.keys =
        (target.merge patch.toJson).get? place.keys ↔
      ¬ (Restores markers body patch place ∧ (target.get? place.keys).isSome = true) := by
  by_cases h : Restores markers body patch place
  · obtain ⟨marker, hm, -, hover⟩ := id h
    rw [get?_merge_touch_of_restores markers body target patch hplace h,
      Json.get?_merge_of_overrides target patch.toJson (hplace marker hm) hover]
    simp [h]
  · rw [get?_merge_touch_of_not_restores markers body target patch hplace h]
    simp [h]

end Merged

end Marker

end ControlLoop
