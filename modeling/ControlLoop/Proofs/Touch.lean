import ControlLoop.Marker
import ControlLoop.Proofs.Patch.Set
import ControlLoop.Settings.Basic

/-!
# Touching markers

The patch of a touch asks for the stamp at each marker and for nothing else, as
long as the stamp is fresh: a marker that holds it already is left out. Markers
are never in each other's way.
-/

set_option autoImplicit false

namespace ControlLoop

namespace Patch

/-- The patch asks for a value at each of the fields, and beyond that holds only what leads
there. -/
structure AsksOnly (patch : Patch) (fields : List FieldPath) (value : Json) : Prop where
  held : ∀ field ∈ fields, patch.get? field = some value
  only : ∀ path inside, patch.get? path = some inside → ∃ field ∈ fields, path.keys <+: field.keys

theorem get?_eq_some_iff {patch : Patch} {path : FieldPath} {value : Json} :
    patch.get? path = some value ↔ path.keys ≠ [] ∧ patch.toJson.get? path.keys = some value := by
  obtain ⟨keys⟩ := path
  cases keys <;> simp [get?, FieldPath.isRoot]

theorem isEmpty_of_get? {patch : Patch} {path : FieldPath} {value : Json}
    (h : patch.get? path = some value) : patch.isEmpty = false := by
  obtain ⟨hroot, hheld⟩ := get?_eq_some_iff.1 h
  obtain ⟨k, ks, hkeys⟩ := List.exists_cons_of_ne_nil hroot
  rw [Bool.eq_false_iff, ne_eq, isEmpty_iff]
  intro hempty
  rw [hkeys, toJson, Json.get?_cons, Json.fields_object, hempty k] at hheld
  cases hheld

/-- Fields that are apart from each other, set one after the other to the same value. -/
theorem asksOnly_foldl_set {fields : List FieldPath} {value : Json} (hleaf : value.isObject = false)
    (hroot : ∀ field ∈ fields, field.keys ≠ []) (hapart : fields.Pairwise FieldPath.Apart) :
    (fields.foldl (fun patch field => patch.set field value) empty).AsksOnly fields value where
  held := by
    intro field hfield
    have hset := get?_foldl_set_past (fun field => field) (fun _ => value) empty hfield
      (hroot field hfield) hapart []
    rw [List.append_nil] at hset
    exact get?_eq_some_iff.2 ⟨hroot field hfield, hset⟩
  only := by
    intro path inside hinside
    obtain ⟨hpath, hinside⟩ := get?_eq_some_iff.1 hinside
    refine Classical.byContradiction fun hnone => ?_
    have hbelow : ∀ field ∈ fields, ¬ path.keys <+: field.keys :=
      fun field hfield hprefix => hnone ⟨field, hfield, hprefix⟩
    by_cases hpast : ∃ field ∈ fields, field.keys <+: path.keys
    · -- Past a field there is only the value, and nothing is inside that.
      obtain ⟨field, hfield, rest, hrest⟩ := hpast
      rw [← hrest, get?_foldl_set_past (fun field => field) (fun _ => value) empty hfield
        (hroot field hfield) hapart rest] at hinside
      cases rest with
      | nil =>
        rw [List.append_nil] at hrest
        exact hbelow field hfield (hrest ▸ List.prefix_rfl)
      | cons k ks => rw [Json.get?_leaf hleaf] at hinside; cases hinside
    · have hapart : ∀ field ∈ fields, field.Apart path := fun field hfield =>
        ⟨fun hprefix => hpast ⟨field, hfield, hprefix⟩, hbelow field hfield⟩
      rw [get?_foldl_set_apart (fun field => field) (fun _ => value) empty hapart] at hinside
      have hnot := isEmpty_of_get? (get?_eq_some_iff.2 ⟨hpath, hinside⟩)
      cases hnot

end Patch

namespace Marker

/-- The markers at which a body holds something else than is asked for. Null counts as absent. -/
def outdated (markers : List FieldPath) (body : Body) (text : Option String) : List FieldPath :=
  markers.filter fun marker =>
    decide ((Body.at? body marker).filter (fun value => !value.isNull) ≠ text.map Json.str)

/-- Of the markers just those that are outdated are set, one after the other. -/
theorem touch_eq_foldl_set (markers : List FieldPath) (body : Body) (patch : Patch)
    (text : Option String) : touch markers body patch text =
      (outdated markers body text).foldl
        (fun patch marker => patch.set marker ((text.map Json.str).getD .null)) patch := by
  rw [outdated, List.foldl_filter, touch]
  congr 1
  funext patch marker
  simp only [touchField, ne_eq, decide_not, Bool.not_eq_true', decide_eq_false_iff_not, ite_not]

/-- No marker of the body holds the stamp. -/
def Fresh (markers : List FieldPath) (body : Body) (stamp : String) : Prop :=
  ∀ marker ∈ markers, Body.at? body marker ≠ some (.str stamp)

theorem outdated_of_fresh {markers : List FieldPath} {body : Body} {stamp : String}
    (h : Fresh markers body stamp) : outdated markers body (some stamp) = markers := by
  rw [outdated, List.filter_eq_self]
  intro marker hmarker
  rw [decide_eq_true_iff]
  intro hheld
  exact h marker hmarker (Option.filter_eq_some_iff.1 hheld).1

/-- With a fresh stamp no marker is left out. -/
theorem touch_of_fresh {markers : List FieldPath} {body : Body} {stamp : String}
    (h : Fresh markers body stamp) (patch : Patch) :
    touch markers body patch (some stamp) =
      markers.foldl (fun patch marker => patch.set marker (.str stamp)) patch := by
  rw [touch_eq_foldl_set, outdated_of_fresh h]
  rfl

theorem markerFields_apart (s : PersistenceSettings) :
    s.markerFields.Pairwise FieldPath.Apart := by
  have hplaces : (statusField s.statusName).Apart (annotationField s.annotationsPrefix) :=
    FieldPath.apart_cons.2 fun hfirst => absurd hfirst (by decide)
  cases hplace : s.place with
  | status => simp [PersistenceSettings.markerFields, hplace]
  | annotations => simp [PersistenceSettings.markerFields, hplace]
  | smart => simp [PersistenceSettings.markerFields, hplace, hplaces]

theorem markerFields_keys_ne_nil (s : PersistenceSettings) :
    ∀ marker ∈ s.markerFields, marker.keys ≠ [] := by
  cases hplace : s.place with
  | status => simp [PersistenceSettings.markerFields, hplace, statusField]
  | annotations => simp [PersistenceSettings.markerFields, hplace, annotationField]
  | smart => simp [PersistenceSettings.markerFields, hplace, statusField, annotationField]

theorem markerFields_ne_nil (s : PersistenceSettings) : s.markerFields ≠ [] := by
  rw [PersistenceSettings.markerFields]
  split <;> exact List.cons_ne_nil _ _

/-- A touch with a fresh stamp asks for the stamp at the markers, and for nothing else. -/
theorem asksOnly_touch (s : PersistenceSettings) {body : Body} {stamp : String}
    (h : Fresh s.markerFields body stamp) :
    (touch s.markerFields body .empty (some stamp)).AsksOnly s.markerFields (.str stamp) := by
  rw [touch_of_fresh h]
  exact Patch.asksOnly_foldl_set rfl (markerFields_keys_ne_nil s) (markerFields_apart s)

theorem isEmpty_touch_of_fresh (s : PersistenceSettings) {body : Body} {stamp : String}
    (h : Fresh s.markerFields body stamp) :
    (touch s.markerFields body .empty (some stamp)).isEmpty = false := by
  obtain ⟨marker, hmarker⟩ := List.exists_mem_of_ne_nil _ (markerFields_ne_nil s)
  exact Patch.isEmpty_of_get? ((asksOnly_touch s h).held marker hmarker)

end Marker

end ControlLoop
