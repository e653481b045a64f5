import ControlLoop.Patch.Merge
import ControlLoop.Proofs.Json.Walk

/-!
# Merging, field by field

A merge is known by what each field holds after it. Of a target only its fields
matter, and what a patch says about one field does not touch another.
-/

set_option autoImplicit false

namespace ControlLoop

namespace Json

/-- What a field holds after a change of it. There is none if the patch does not name the field. -/
def mergeField (held : Option Json) : (change : Option Json) → Option Json
  | none => held
  | some change => if change.isNull then none else some ((held.getD .null).merge change)

@[simp] theorem mergeField_none (held : Option Json) : mergeField held none = held := rfl

@[simp] theorem mergeField_null (held : Option Json) : mergeField held (some .null) = none := rfl

theorem mergeField_some (held : Option Json) {change : Json} (h : change.isNull = false) :
    mergeField held (some change) = some ((held.getD .null).merge change) := by
  rw [mergeField, h]; rfl

/-- A change that is no object takes the target's place. -/
theorem merge_leaf (target : Json) {change : Json} (h : change.isObject = false) :
    target.merge change = change := by
  cases change with
  | obj keys value => cases h
  | _ => rfl

/-- Merging an object leaves an object. -/
theorem merge_object (target : Json) (changes : Fields Json) :
    target.merge (object changes) = object (target.merge (object changes)).fields := rfl

theorem get?_merge_object (target : Json) (changes : Fields Json) (k : String) :
    (target.merge (object changes)).fields.get? k =
      mergeField (target.fields.get? k) (changes.get? k) := by
  obtain ⟨keys, change⟩ := changes
  show (target.merge (.obj keys change)).fields.get? k = _
  simp only [merge, fields_object, Fields.get?_collect, KeySet.mem_union]
  by_cases hk : k ∈ keys
  · simp only [hk, or_true, ↓reduceDIte, @Fields.get?_of_mem _ ⟨keys, change⟩ _ hk]
    rfl
  · have hnone : (⟨keys, change⟩ : Fields Json).get? k = none := Fields.get?_eq_none_iff.2 hk
    simp only [hk, or_false, ↓reduceDIte, hnone, mergeField_none]
    split
    · rfl
    · next hf => exact (Fields.get?_eq_none_iff.2 hf).symm

theorem get?_merge_object_cons (target : Json) (changes : Fields Json) (k : String)
    (ks : List String) : (target.merge (object changes)).get? (k :: ks) =
      (mergeField (target.fields.get? k) (changes.get? k)).bind fun child => child.get? ks := by
  rw [get?_cons, get?_merge_object]

/-- Merges of objects are equal if every field is the same after them. -/
theorem merge_object_eq_iff {target other : Json} {changes others : Fields Json} :
    target.merge (object changes) = other.merge (object others) ↔
      ∀ k, mergeField (target.fields.get? k) (changes.get? k) =
        mergeField (other.fields.get? k) (others.get? k) := by
  rw [merge_object target, merge_object other, object_inj, Fields.ext_iff]
  simp only [get?_merge_object]

/-- A merge never leaves null where the change was something else. -/
theorem isNull_merge (target : Json) {change : Json} (h : change.isNull = false) :
    (target.merge change).isNull = false := by
  cases change with
  | null => cases h
  | _ => rfl

end Json

end ControlLoop
