import ControlLoop.Proofs.Patch.Set
import ControlLoop.Proofs.Store.Emptied
import ControlLoop.Proofs.Store.Replay

/-!
# Collapsing is removal

A collapsing field that holds nothing is removed just as a patch with a null for
it would remove it. This tells what a write leaves by merging alone: the patch is
merged, and then the fields are gone through in their order, each of which is
removed if there is an empty array or an empty object.
-/

set_option autoImplicit false

namespace ControlLoop

namespace Json

variable {value : Json} {k : String} {ks : List String}

/-- An empty patch leaves an object as it is. -/
theorem merge_empty (h : value.isObject = true) : value.merge Patch.empty.toJson = value := by
  rw [eq_object_of_isObject h]
  refine (merge_object _ _).trans (object_inj.2 ?_)
  ext1 j
  exact get?_merge_object _ _ j

/-- A path that leads somewhere starts in an object. -/
theorem isObject_of_holdsEmpty_cons (h : value.HoldsEmpty (k :: ks)) : value.isObject = true := by
  obtain ⟨child, hchild, -⟩ := holdsEmpty_cons.1 h
  cases value using fieldsInduction with
  | leaf value hleaf =>
    rw [get?_fields_leaf hleaf] at hchild
    cases hchild
  | object fs => rfl

/-- To collapse a place in a field is to change the field by the rest of the null's way. -/
theorem collapseField_eq_mergeField {child : Json} (hempty : child.HoldsEmpty ks)
    (inside : child.isObject = true →
      child.collapseEmpty ks = child.merge (Patch.empty.set ⟨ks⟩ .null).toJson) :
    collapseField (some child) ks =
      mergeField (some child) (some (Patch.setInside none ks .null)) := by
  cases ks with
  | nil => simp [collapseField, Option.filter_some, holdsEmpty_nil.1 hempty, Patch.setInside]
  | cons k ks => exact congrArg some (inside (isObject_of_holdsEmpty_cons hempty))

/-- An empty container at a place is collapsed as a null at the place removes it. -/
theorem collapseEmpty_eq_merge (hobject : value.isObject = true) (h : value.HoldsEmpty ks) :
    value.collapseEmpty ks = value.merge (Patch.empty.set ⟨ks⟩ .null).toJson := by
  induction ks generalizing value with
  | nil => exact (merge_empty hobject).symm
  | cons k ks ih =>
    obtain ⟨fs, rfl⟩ : ∃ fs, value = object fs := ⟨_, eq_object_of_isObject hobject⟩
    obtain ⟨after, hafter, hfields⟩ := collapseEmpty_object fs k ks
    obtain ⟨child, hchild, hinside⟩ := holdsEmpty_cons.1 h
    rw [fields_object] at hchild
    have hmerged (j : String) : after.get? j =
        mergeField (fs.get? j) ((Patch.empty.set ⟨k :: ks⟩ .null).fields.get? j) := by
      rw [hfields, Patch.set]
      split
      · next hj =>
        subst hj
        rw [Patch.get?_setKeys_head, hchild]
        exact collapseField_eq_mergeField hinside fun hobject => ih hobject hinside
      · next hj =>
        rw [Patch.get?_setKeys_other _ _ _ hj]
        rfl
    rw [hafter]
    refine (object_inj.2 ?_).trans (merge_object _ _).symm
    ext1 j
    refine (hmerged j).trans ?_
    rw [get?_merge_object, fields_object]

end Json

namespace Store

/-- What becomes of a value as the collapsing fields are gone through: a field that holds nothing is
removed by a null, and any other leaves the value as it is. -/
inductive Collapses : List FieldPath → Json → Json → Prop where
  | done (value : Json) : Collapses [] value value
  | removed {field : FieldPath} {fields : List FieldPath} {value result : Json}
      (empty : value.HoldsEmpty field.keys)
      (rest : Collapses fields (value.merge (Patch.empty.set field .null).toJson) result) :
      Collapses (field :: fields) value result
  | kept {field : FieldPath} {fields : List FieldPath} {value result : Json}
      (full : ¬ value.HoldsEmpty field.keys) (rest : Collapses fields value result) :
      Collapses (field :: fields) value result

variable {fields : List FieldPath} {value result : Json}

theorem collapse_cons (field : FieldPath) (fields : List FieldPath) (value : Json) :
    collapse (field :: fields) value = collapse fields (value.collapseEmpty field.keys) := rfl

/-- The store collapses an object to this and to nothing else. -/
theorem collapses_iff (h : value.isObject = true) :
    Collapses fields value result ↔ result = collapse fields value := by
  induction fields generalizing value with
  | nil =>
    constructor
    · rintro ⟨⟩
      rfl
    · rintro rfl
      exact .done _
  | cons field fields ih =>
    by_cases hempty : value.HoldsEmpty field.keys
    · have hmerge := Json.collapseEmpty_eq_merge h hempty
      rw [collapse_cons, hmerge]
      constructor
      · intro hcollapses
        cases hcollapses with
        | removed _ rest => exact (ih rfl).1 rest
        | kept full _ => exact absurd hempty full
      · intro hresult
        exact .removed hempty ((ih rfl).2 hresult)
    · rw [collapse_cons, Json.collapseEmpty_of_not_holdsEmpty hempty]
      constructor
      · intro hcollapses
        cases hcollapses with
        | removed empty _ => exact absurd empty hempty
        | kept _ rest => exact (ih h).1 rest
      · intro hresult
        exact .kept hempty ((ih h).2 hresult)

end Store

end ControlLoop
