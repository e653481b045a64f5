import ControlLoop.Proofs.Diff.Items
import ControlLoop.Proofs.Json.Strip
import ControlLoop.Proofs.Patch.Merge

/-!
# A patch that has taken effect

The comparison of a patch with a body in the left scope is an exact test of
whether the patch has taken effect: it finds nothing just when merging the patch
once more would change nothing of the body but fields that hold null.
-/

set_option autoImplicit false

namespace ControlLoop

namespace Json

/-- Stripping a merge strips what each field holds after it. -/
theorem get?_strip_merge_object (target : Json) (changes : Fields Json) (k : String) :
    (target.merge (object changes)).strip.fields.get? k =
      stripField (mergeField (target.fields.get? k) (changes.get? k)) := by
  rw [merge_object target changes, get?_strip_object,
    get?_merge_object]

/-- One change leaves its field as it was, up to nulls, if merging it into what the field holds
does. -/
theorem stripField_mergeField_beq_iff (held : Option Json) (change : Json) :
    (stripField (mergeField held (some change)) == stripField held) = true ↔
      (((held.getD .null).merge change).strip == (held.getD .null).strip) = true := by
  rw [stripField_eq held]
  by_cases hchange : change.isNull = true
  · -- The field goes away, which is seen unless it held null.
    rw [isNull_iff.1 hchange, mergeField_null, stripField_none]
    show _ ↔ (Json.null == (held.getD .null).strip) = true
    rw [null_beq, isNull_strip]
    by_cases hheld : (held.getD .null).isNull = true <;> simp [hheld]
  · have hmerged := isNull_merge (held.getD .null) (Bool.eq_false_iff.2 hchange)
    rw [mergeField_some held (Bool.eq_false_iff.2 hchange), stripField_some hmerged]
    by_cases hheld : (held.getD .null).isNull = true
    · rw [isNull_iff.1 hheld] at hmerged ⊢
      show (some _ == none) = true ↔ (_ == Json.null) = true
      rw [beq_null, isNull_strip, hmerged]
      simp
    · rw [if_neg hheld, Option.some_beq_some]

end Json

namespace Diff

/-- Below any path, a patch and a body show no difference in the left scope just if the body equals
its merge with the patch up to nulls. -/
theorem between_left_eq_nil_iff (path : FieldPath) (patch body : Json) :
    between .left path patch body = [] ↔ ((body.merge patch).strip == body.strip) = true := by
  induction patch using Json.fieldsInduction generalizing path body with
  | leaf patch hpatch =>
    rw [between_leaf_left body hpatch, whole_eq_nil_iff, Json.merge_leaf body hpatch,
      Json.strip_leaf hpatch]
    cases body using Json.fieldsInduction with
    | leaf body hbody => rw [Json.strip_leaf hbody]
    | object fs => rw [Json.strip_object, Json.leaf_beq_object hpatch, Json.leaf_beq_object hpatch]
  | object changes ih =>
    cases body using Json.fieldsInduction with
    | leaf body hbody =>
      rw [between_leaf_right _ hbody, whole_eq_nil_iff, Json.strip_leaf hbody,
        Json.merge_object body changes, Json.strip_object,
        Json.object_beq_leaf hbody, Json.object_beq_leaf hbody]
    | object held =>
      have hmerge := Json.merge_object (.object held) changes
      have hkeys : ((Json.merge (.object held) (.object changes)).strip ==
          (Json.object held).strip) = true ↔ ∀ k,
          (Json.stripField (Json.mergeField (held.get? k) (changes.get? k)) ==
            Json.stripField (held.get? k)) = true := by
        rw [hmerge, Json.strip_object, Json.strip_object held, Json.object_beq_object_iff]
        refine forall_congr' fun k => ?_
        rw [← hmerge, Json.get?_strip_merge_object, Json.get?_strip_object, Json.fields_object]
      rw [hkeys, List.eq_nil_iff_forall_not_mem]
      constructor
      · intro hnone k
        cases hk : changes.get? k with
        | none => rw [Json.mergeField_none]; simp
        | some change =>
          rw [Json.stripField_mergeField_beq_iff, ← ih k change hk (path.child k)]
          refine List.eq_nil_iff_forall_not_mem.2 fun item hitem => ?_
          exact hnone item (mem_between_left_object.2 ⟨k, change, hk, hitem⟩)
      · intro hall item hitem
        obtain ⟨k, change, hk, hitem⟩ := mem_between_left_object.1 hitem
        have hfield := hall k
        rw [hk, Json.stripField_mergeField_beq_iff, ← ih k change hk (path.child k)] at hfield
        rw [hfield] at hitem
        cases hitem

/-- The check of a patch against a body finds nothing just if the patch has taken effect: its merge
into the body changes nothing but nulls. -/
theorem diff_left_eq_nil_iff_merged (patch : Patch) (body : Body) :
    patch.toJson.diff body .left = [] ↔
      ((body.merge patch.toJson).strip == body.strip) = true :=
  between_left_eq_nil_iff .root patch.toJson body

end Diff

end ControlLoop
