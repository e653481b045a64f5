import ControlLoop.Proofs.Diff.Merged
import ControlLoop.Proofs.Diff.Places
import ControlLoop.Proofs.Patch.Set

/-!
# A side rebuilt from a difference

The full difference of two objects, made into a patch item by item, turns the
one object into the other up to fields that hold null. At a place where the two
differ the patch holds what the other side holds; on the way to such places it
holds objects; everywhere else it holds nothing.
-/

set_option autoImplicit false

namespace ControlLoop

namespace Patch

/-- The patch that asks for what is new in each item, one after the other. -/
def ofDiff (diff : Diff) : Patch :=
  diff.foldl (fun patch item => patch.set item.field item.new) .empty

end Patch

namespace Json

/-- A change is what is left of it after a merge, up to nulls, if the merge leaves no more. -/
theorem stripField_mergeField_eq {held : Option Json} {change : Json}
    (h : ((held.getD .null).merge change).strip = change.strip) :
    stripField (mergeField held (some change)) = stripField (some change) := by
  cases hnull : change.isNull with
  | true => rw [isNull_iff.1 hnull]; rfl
  | false =>
    rw [mergeField_some held hnull, stripField_some (isNull_merge _ hnull), stripField_some hnull,
      h]

/-- A merge leaves the change without its nulls, unless an object is merged into another. -/
theorem strip_merge_of_not_objects {target change : Json} (h : ¬ BothObjects target change) :
    (target.merge change).strip = change.strip := by
  induction change using fieldsInduction generalizing target with
  | leaf change hchange => rw [merge_leaf target hchange]
  | object changes ih =>
    have htarget : target.isObject = false := Bool.eq_false_iff.2 fun ht => h ⟨ht, rfl⟩
    have hmerge := merge_object target changes
    rw [hmerge, strip_object, strip_object changes, object_inj, ← hmerge]
    ext1 k
    rw [get?_strip_merge_object, get?_strip_object, get?_fields_leaf htarget]
    cases hk : changes.get? k with
    | none => rfl
    | some change =>
      exact stripField_mergeField_eq (ih k change hk fun hobjects => Bool.false_ne_true hobjects.1)

end Json

namespace Diff

/-- In the full scope there is an item for every place where the two values differ. -/
theorem itemAt_mem_full {a b : Json} {path : List String} (h : Json.DifferAt a b path) :
    itemAt .root a b path ∈ a.diff b .full := by
  refine mem_between_iff.2 ⟨path, h, ?_, rfl⟩
  rw [DiffScope.compares_full, Bool.or_eq_true]
  have hdiffer := h.differ
  cases ha : a.get? path with
  | some child => exact Or.inl rfl
  | none =>
    cases hb : b.get? path with
    | some other => exact Or.inr rfl
    | none => rw [Json.valueAt, Json.valueAt, ha, hb] at hdiffer; cases hdiffer

section Rebuilt

variable (a b : Fields Json)

/-- The patch from one object to another. -/
def rebuilding : Patch := .ofDiff ((Json.object a).diff (.object b) .full)

variable {a b} {path : List String}

theorem ne_nil_of_differAt (h : Json.DifferAt (.object a) (.object b) path) : path ≠ [] := by
  rintro rfl
  exact h.lowest (Json.bothObjects_object a b)

/-- Where the objects differ, the patch holds what the other side holds. -/
theorem get?_rebuilding_of_differAt (h : Json.DifferAt (.object a) (.object b) path) :
    (rebuilding a b).toJson.get? path = some ((Json.object b).valueAt path) := by
  have hread := Patch.get?_foldl_set_past DiffItem.field DiffItem.new .empty (itemAt_mem_full h)
    (ne_nil_of_differAt h) (pairwise_apart_between _ _) []
  rwa [List.append_nil] at hread

/-- Nothing is held at a path that is apart from every place where the objects differ. -/
theorem get?_rebuilding_of_apart (hroot : path ≠ [])
    (h : ∀ place, Json.DifferAt (.object a) (.object b) place → FieldPath.Apart ⟨place⟩ ⟨path⟩) :
    (rebuilding a b).toJson.get? path = none := by
  have hapart : ∀ item ∈ (Json.object a).diff (.object b) .full, item.field.Apart ⟨path⟩ :=
    fun item hitem => h item.field.keys (mem_diff_iff.1 hitem).1
  rw [rebuilding, Patch.ofDiff,
    Patch.get?_foldl_set_apart DiffItem.field DiffItem.new .empty hapart]
  obtain ⟨k, ks, rfl⟩ := List.exists_cons_of_ne_nil hroot
  rfl

/-- Nothing is held where the objects hold equal values that are not both objects. -/
theorem get?_rebuilding_of_beq (hcompared : Json.ComparedAt (.object a) (.object b) path)
    (heq : ((Json.object a).valueAt path == (Json.object b).valueAt path) = true)
    (hobjects : ¬ Json.BothObjects ((Json.object a).valueAt path) ((Json.object b).valueAt path)) :
    (rebuilding a b).toJson.get? path = none := by
  refine get?_rebuilding_of_apart ?_ fun place hplace => hplace.apart hcompared fun hprefix => ?_
  · rintro rfl
    exact hobjects (Json.bothObjects_object a b)
  · by_cases hsame : path = place
    · exact Bool.false_ne_true (hplace.differ.symm.trans (hsame ▸ heq))
    · exact hobjects (hplace.compared path hprefix hsame)

/-- Where both sides hold objects, the patch holds an object too, or nothing. -/
theorem get?_rebuilding_of_objects (hcompared : Json.ComparedAt (.object a) (.object b) path)
    (hobjects : Json.BothObjects ((Json.object a).valueAt path) ((Json.object b).valueAt path)) :
    (rebuilding a b).toJson.get? path = none ∨
      ∃ changes, (rebuilding a b).toJson.get? path = some (.object changes) := by
  by_cases hpast : ∃ place, Json.DifferAt (.object a) (.object b) place ∧ path <+: place
  · obtain ⟨place, hplace, rest, rfl⟩ := hpast
    have hheld := get?_rebuilding_of_differAt hplace
    rw [Json.get?_append] at hheld
    obtain ⟨held, hpath, hrest⟩ := Option.bind_eq_some_iff.1 hheld
    cases rest with
    | nil =>
      rw [List.append_nil] at hplace
      exact absurd hobjects hplace.lowest
    | cons k ks =>
      cases held using Json.fieldsInduction with
      | leaf held hleaf => rw [Json.get?_leaf hleaf] at hrest; cases hrest
      | object changes => exact Or.inr ⟨changes, hpath⟩
  · cases path with
    | nil => exact Or.inr ⟨_, rfl⟩
    | cons k ks =>
      refine Or.inl (get?_rebuilding_of_apart (List.cons_ne_nil k ks) fun place hplace => ?_)
      exact hplace.apart hcompared fun hprefix => hpast ⟨place, hplace, hprefix⟩

/-- Merging the patch turns what the one object holds at a path into what the other one holds. -/
theorem stripField_rebuilt (hcompared : Json.ComparedAt (.object a) (.object b) path) :
    (Json.stripField (Json.mergeField ((Json.object a).get? path)
      ((rebuilding a b).toJson.get? path)) == Json.stripField ((Json.object b).get? path)) =
      true := by
  induction ha : (Json.object a).valueAt path, hb : (Json.object b).valueAt path
    using Json.pairInduction generalizing path with
  | whole x y hxy =>
    have hobjects : ¬ Json.BothObjects ((Json.object a).valueAt path)
        ((Json.object b).valueAt path) := by
      rwa [ha, hb]
    by_cases heq : ((Json.object a).valueAt path == (Json.object b).valueAt path) = true
    · rw [get?_rebuilding_of_beq hcompared heq hobjects, Json.mergeField_none]
      exact Json.stripField_beq_of_beq heq hobjects
    · have hdiffer := get?_rebuilding_of_differAt ⟨hcompared, Bool.eq_false_iff.2 heq, hobjects⟩
      rw [hdiffer, Json.stripField_mergeField_eq (Json.strip_merge_of_not_objects hobjects),
        Json.valueAt, Json.stripField_getD]
      exact BEq.rfl
  | fields fs gs ih =>
    have hobjects : Json.BothObjects ((Json.object a).valueAt path)
        ((Json.object b).valueAt path) := by
      rw [ha, hb]
      exact Json.bothObjects_object fs gs
    have hfs := Json.get?_of_valueAt_object ha
    have hgs := Json.get?_of_valueAt_object hb
    have hfield : ∀ k, (Json.stripField (Json.mergeField (fs.get? k)
        ((rebuilding a b).toJson.get? (path ++ [k]))) == Json.stripField (gs.get? k)) = true := by
      intro k
      have hk := ih k (hcompared.concat hobjects k) (by rw [Json.valueAt_concat, ha]; rfl)
        (by rw [Json.valueAt_concat, hb]; rfl)
      rwa [Json.get?_concat_of_object hfs, Json.get?_concat_of_object hgs] at hk
    rw [hfs, hgs]
    rcases get?_rebuilding_of_objects hcompared hobjects with hnone | ⟨changes, hheld⟩
    · -- The patch has nothing to say here, and nothing below.
      rw [hnone, Json.mergeField_none, Json.stripField_object_beq_iff]
      intro k
      have hk := hfield k
      rwa [Json.get?_append, hnone, Option.bind_none, Json.mergeField_none] at hk
    · have hmerge := Json.merge_object (.object fs) changes
      rw [hheld, Json.mergeField_some _ (Json.isNull_object changes), Option.getD_some, hmerge,
        Json.stripField_object_beq_iff]
      intro k
      have hk := hfield k
      rwa [Json.get?_concat_of_object hheld, ← Json.fields_object fs,
        ← Json.get?_merge_object] at hk

end Rebuilt

/-- The full difference of two objects, merged into the one item by item as a patch, gives the other
up to fields that hold null. -/
theorem merge_ofDiff_full (a b : Fields Json) :
    (((Json.object a).merge (Patch.ofDiff ((Json.object a).diff (.object b) .full)).toJson).strip ==
      (Json.object b).strip) = true :=
  -- This is the root, which holds the objects themselves.
  stripField_rebuilt (Json.comparedAt_nil (.object a) (.object b))

/-- The null inside the object that replaced the list is lost. -/
example : ((declared.merge (Patch.ofDiff (declared.diff observed .full)).toJson).get? ["", "a.b"],
    observed.get? ["", "a.b"]) = (some .emptyObject, some (.objectOfList [("c", .null)])) := by
  decide

end Diff

end ControlLoop
