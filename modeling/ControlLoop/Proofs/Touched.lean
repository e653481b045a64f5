import Mathlib.Data.List.Pairwise
import ControlLoop.Proofs.Marker
import ControlLoop.Proofs.Touch

/-!
# What touching and clearing leave in a body

To touch an object is to write a text to its markers. In the body that results
each marker holds the text, whatever was in the way, and nothing apart from the
markers has changed; there is then nothing left to touch with that text. To
clear the markers is to have them removed by a patch that is written anyway. In
the body that results none of the markers that were held is left, and if none
was held the patch is written as it is.
-/

set_option autoImplicit false

namespace ControlLoop

namespace FieldPath

instance : Std.Symm Apart := ⟨fun _ _ => Apart.symm⟩

end FieldPath

namespace Marker

/-- The body once the markers were touched with a text. -/
def touched (markers : List FieldPath) (body : Body) (text : String) : Body :=
  body.merge (touch markers body .empty (some text)).toJson

/-- The body once a patch was written with which the markers are cleared. -/
def cleared (markers : List FieldPath) (body : Body) (patch : Patch) : Body :=
  body.merge (touch markers body patch none).toJson

section Outdated

variable {markers : List FieldPath} {body : Body} {marker : FieldPath}

/-- A marker is outdated with respect to a text unless it holds it. -/
theorem mem_outdated_some_iff {text : String} : marker ∈ outdated markers body (some text) ↔
    marker ∈ markers ∧ Body.at? body marker ≠ some (.str text) := by
  rw [outdated, List.mem_filter, decide_eq_true_iff, ne_eq, ne_eq, Option.map_some,
    Option.filter_eq_some_iff]
  simp [Json.isNull]

/-- For the markers to be absent those are outdated that the body holds. -/
theorem mem_outdated_none_iff : marker ∈ outdated markers body none ↔
    marker ∈ markers ∧ Held body marker := by
  rw [outdated, List.mem_filter, decide_eq_true_iff, Option.map_none, ne_eq,
    Option.filter_eq_none_iff]
  simp [Held]

/-- If no marker is outdated, there is nothing to set. -/
theorem touch_of_current {text : Option String} (h : ∀ marker, marker ∉ outdated markers body text)
    (patch : Patch) : touch markers body patch text = patch := by
  have hnone : outdated markers body text = [] := List.eq_nil_iff_forall_not_mem.2 h
  rw [touch_eq_foldl_set, hnone, List.foldl_nil]

/-- An outdated marker holds in the patch what was asked for. -/
theorem get?_touch_of_outdated {text : Option String} (hroot : marker.keys ≠ [])
    (hapart : markers.Pairwise FieldPath.Apart) (h : marker ∈ outdated markers body text)
    (patch : Patch) : (touch markers body patch text).toJson.get? marker.keys =
      some ((text.map Json.str).getD .null) := by
  have hset := Patch.get?_foldl_set_past (fun marker => marker)
    (fun _ => (text.map Json.str).getD .null) patch h hroot (hapart.filter _) []
  rw [List.append_nil] at hset
  rw [touch_eq_foldl_set]
  exact hset

end Outdated

section Touching

variable {markers : List FieldPath} (body : Body) (text : String)

/-- A touch leaves a place that is apart from all the markers that it sets. -/
theorem touched_apart {place : FieldPath} (hplace : place.keys ≠ [])
    (h : ∀ marker ∈ outdated markers body (some text), marker.Apart place) :
    Body.at? (touched markers body text) place = Body.at? body place := by
  obtain ⟨k, ks, hkeys⟩ := List.exists_cons_of_ne_nil hplace
  have hover : ∀ marker ∈ outdated markers body (some text),
      ¬ Patch.empty.toJson.Overrides marker place :=
    fun marker _ => Json.not_overrides_empty marker place
  rw [touched, touch_eq_foldl_set, Body.at?, Json.get?_merge_foldl_set_apart _ body h hover, hkeys,
    Json.get?_merge_empty, Body.at?, hkeys]

/-- A touch leaves the text at each marker. -/
theorem touched_at (hroot : ∀ marker ∈ markers, marker.keys ≠ [])
    (hapart : markers.Pairwise FieldPath.Apart) {marker : FieldPath} (hmarker : marker ∈ markers) :
    Body.at? (touched markers body text) marker = some (.str text) := by
  by_cases hheld : Body.at? body marker = some (.str text)
  · -- The marker is left out, and the others are apart from it.
    rw [touched_apart body text (hroot marker hmarker), hheld]
    intro other hother
    obtain ⟨hother, hoverdue⟩ := mem_outdated_some_iff.1 hother
    refine hapart.forall hother hmarker ?_
    intro hsame
    exact hoverdue (hsame ▸ hheld)
  · have hset := get?_touch_of_outdated (hroot marker hmarker) hapart
      (mem_outdated_some_iff.2 ⟨hmarker, hheld⟩) .empty
    exact Json.get?_merge_at body hset

/-- A second touch with the text asks for nothing. -/
theorem touch_touched (hroot : ∀ marker ∈ markers, marker.keys ≠ [])
    (hapart : markers.Pairwise FieldPath.Apart) (patch : Patch) :
    touch markers (touched markers body text) patch (some text) = patch := by
  apply touch_of_current
  intro marker houtdated
  obtain ⟨hmarker, hother⟩ := mem_outdated_some_iff.1 houtdated
  exact hother (touched_at body text hroot hapart hmarker)

end Touching

section Clearing

variable {markers : List FieldPath} {body : Body} (patch : Patch)

/-- Where no marker is held, clearing adds nothing to a patch. -/
theorem touch_none_of_not_held (h : ∀ marker ∈ markers, ¬ Held body marker) :
    touch markers body patch none = patch := by
  apply touch_of_current
  intro marker houtdated
  obtain ⟨hmarker, hheld⟩ := mem_outdated_none_iff.1 houtdated
  exact h marker hmarker hheld

/-- Clearing leaves nothing at a marker that was held. -/
theorem cleared_at (hroot : ∀ marker ∈ markers, marker.keys ≠ [])
    (hapart : markers.Pairwise FieldPath.Apart) {marker : FieldPath} (hmarker : marker ∈ markers)
    (hheld : Held body marker) : Body.at? (cleared markers body patch) marker = none := by
  have hset := get?_touch_of_outdated (hroot marker hmarker) hapart
    (mem_outdated_none_iff.2 ⟨hmarker, hheld⟩) patch
  exact Json.get?_merge_at body hset

end Clearing

/-- A touch leaves the text at each marker of a body and nothing else that is new: what is apart
from the markers is as it was, and the text is not asked for again. Clearing leaves a patch alone if
the body holds no marker, and otherwise takes each marker that it holds out of the body. -/
theorem touch_marks_and_clears (s : PersistenceSettings) (body : Body) (text : String)
    (patch : Patch) :
    (∀ marker ∈ s.markerFields,
      Body.at? (touched s.markerFields body text) marker = some (.str text)) ∧
    (∀ place : FieldPath, (∀ marker ∈ s.markerFields, marker.Apart place) →
      Body.at? (touched s.markerFields body text) place = Body.at? body place) ∧
    touch s.markerFields (touched s.markerFields body text) .empty (some text) = .empty ∧
    ((∀ marker ∈ s.markerFields, ¬ Held body marker) →
      touch s.markerFields body patch none = patch) ∧
    ∀ marker ∈ s.markerFields, Held body marker →
      Body.at? (cleared s.markerFields body patch) marker = none := by
  have hroot := markerFields_keys_ne_nil s
  have hapart := markerFields_apart s
  refine ⟨?_, ?_, ?_, ?_, ?_⟩
  · intro marker hmarker
    exact touched_at body text hroot hapart hmarker
  · intro place hplace
    obtain ⟨first, hfirst⟩ := List.exists_mem_of_ne_nil _ (markerFields_ne_nil s)
    obtain ⟨-, -, k, ks, -, hkeys⟩ := (hplace first hfirst).exists_cons
    have hbelow : place.keys ≠ [] := by
      rw [hkeys]
      exact List.cons_ne_nil k ks
    apply touched_apart body text hbelow
    intro marker houtdated
    exact hplace marker (mem_outdated_some_iff.1 houtdated).1
  · exact touch_touched body text hroot hapart .empty
  · intro hnone
    exact touch_none_of_not_held patch hnone
  · intro marker hmarker hheld
    exact cleared_at patch hroot hapart hmarker hheld

/-- Settings of a marker in both places. -/
def bothPlaces : PersistenceSettings where
  place := .smart
  statusName := "reconciler"
  annotationsPrefix := "example.dev"

/-- A body with a text where the one marker would have its parents, and with the other marker. -/
def annotated : Body :=
  .objectOfList [("status", .str "Ready"), ("metadata", .objectOfList [("annotations",
    .objectOfList [("app", .str "web"), ("example.dev/touch-dummy", .str "old")])])]

/-- A body without markers, of which one would have a null above it. -/
def unmarked : Body :=
  .objectOfList [("status", .objectOfList [("reconciler", .null)])]

/-- A patch that removes an ancestor of a marker. -/
def metadataRemoval : Patch := ⟨.ofList [("metadata", .null)]⟩

/-- The text at the status gives way to its marker, and the other annotation stays. The marker that
is held is cleared along with the removal of all the metadata. -/
theorem annotated_marked_and_cleared :
    Body.at? (touched bothPlaces.markerFields annotated "t1") (statusField "reconciler") =
      some (.str "t1") ∧
    Body.at? (touched bothPlaces.markerFields annotated "t1") (annotationField "example.dev") =
      some (.str "t1") ∧
    Body.at? (touched bothPlaces.markerFields annotated "t1") ⟨["metadata", "annotations", "app"]⟩ =
      some (.str "web") ∧
    touch bothPlaces.markerFields (touched bothPlaces.markerFields annotated "t1") .empty
      (some "t1") = .empty ∧
    touch bothPlaces.markerFields unmarked metadataRemoval none = metadataRemoval ∧
    Held annotated (annotationField "example.dev") ∧
    Body.at? (cleared bothPlaces.markerFields annotated metadataRemoval)
      (annotationField "example.dev") = none := by
  have hstatus : statusField "reconciler" ∈ bothPlaces.markerFields := by decide
  have hannotation : annotationField "example.dev" ∈ bothPlaces.markerFields := by decide
  have hplace : ∀ marker ∈ bothPlaces.markerFields,
      marker.Apart ⟨["metadata", "annotations", "app"]⟩ := by decide
  have hunmarked : ∀ marker ∈ bothPlaces.markerFields, Body.at? unmarked marker = none := by decide
  have hheld : Held annotated (annotationField "example.dev") := ⟨.str "old", by decide, rfl⟩
  obtain ⟨htext, hkept, hagain, -, hgone⟩ :=
    touch_marks_and_clears bothPlaces annotated "t1" metadataRemoval
  obtain ⟨-, -, -, halone, -⟩ := touch_marks_and_clears bothPlaces unmarked "t1" metadataRemoval
  refine ⟨htext _ hstatus, htext _ hannotation, ?_, hagain, ?_, hheld, hgone _ hannotation hheld⟩
  · rw [hkept _ hplace]
    decide
  · apply halone
    rintro marker hmarker ⟨value, hat, -⟩
    rw [hunmarked marker hmarker] at hat
    cases hat

end Marker

end ControlLoop
