import ControlLoop.Proofs.Json.Equality

/-!
# Values without nulls

A field that holds null counts as absent. A value is stripped by dropping such
fields, inside objects however deep; what an array holds is left alone.
-/

set_option autoImplicit false

namespace ControlLoop

namespace Json

/-- The value without the fields that hold null. -/
def strip : Json → Json
  | .obj keys value =>
    object (Fields.collect keys fun k =>
      if (value k).isNull then none else some (strip (value k)))
  | value => value

/-- What a field holds once its object is stripped. -/
def stripField (held : Option Json) : Option Json :=
  held.bind fun value => if value.isNull then none else some value.strip

@[simp] theorem stripField_none : stripField none = none := rfl

theorem stripField_some {value : Json} (h : value.isNull = false) :
    stripField (some value) = some value.strip := by
  rw [stripField, Option.bind_some, h]; rfl

/-- A field that holds null is the same as one that is absent. -/
theorem stripField_eq (held : Option Json) :
    stripField held =
      if (held.getD .null).isNull then none else some (held.getD .null).strip := by
  cases held <;> rfl

theorem strip_leaf {value : Json} (h : value.isObject = false) : value.strip = value := by
  cases value with
  | obj keys child => cases h
  | _ => rfl

theorem strip_object (fs : Fields Json) : (object fs).strip = object (object fs).strip.fields := rfl

theorem get?_strip_object (fs : Fields Json) (k : String) :
    (object fs).strip.fields.get? k = stripField (fs.get? k) := by
  obtain ⟨keys, value⟩ := fs
  show (strip (.obj keys value)).fields.get? k = _
  simp only [strip, fields_object, Fields.get?_collect]
  by_cases hk : k ∈ keys
  · rw [dif_pos hk, @Fields.get?_of_mem _ ⟨keys, value⟩ _ hk]
    rfl
  · rw [dif_neg hk, Fields.get?_eq_none_iff.2 hk]
    rfl

/-- Nothing but null is stripped to null. -/
theorem isNull_strip (value : Json) : value.strip.isNull = value.isNull := by
  cases value <;> rfl

theorem stripField_getD (held : Option Json) :
    stripField (some (held.getD .null)) = stripField held := by
  rw [stripField_eq held, stripField_eq]; rfl

/-- Stripped objects are equal if they hold equal values at every key once these are stripped. -/
theorem stripField_object_beq_iff {a b : Fields Json} :
    (stripField (some (object a)) == stripField (some (object b))) = true ↔
      ∀ k, (stripField (a.get? k) == stripField (b.get? k)) = true := by
  rw [stripField_some (isNull_object a), stripField_some (isNull_object b), Option.some_beq_some,
    strip_object, strip_object b, object_beq_object_iff]
  simp only [get?_strip_object]

/-- Fields that hold equal values are equal once these are stripped, if they are not objects. -/
theorem stripField_beq_of_beq {held other : Option Json}
    (h : (held.getD .null == other.getD .null) = true)
    (hobjects : ¬ BothObjects (held.getD .null) (other.getD .null)) :
    (stripField held == stripField other) = true := by
  rw [stripField_eq held, stripField_eq other]
  generalize held.getD .null = a, other.getD .null = b at h hobjects
  cases ha : a.isObject with
  | true =>
    have hb : b.isObject = false := Bool.eq_false_iff.2 fun hb => hobjects ⟨ha, hb⟩
    rw [eq_object_of_isObject ha, object_beq_leaf hb] at h
    cases h
  | false =>
    cases hb : b.isObject with
    | true =>
      rw [eq_object_of_isObject hb, leaf_beq_object ha] at h
      cases h
    | false =>
      have hnull : a.isNull = b.isNull := by
        cases hnull : a.isNull with
        | true => rw [isNull_iff.1 hnull, null_beq] at h; exact h.symm
        | false =>
          cases hother : b.isNull with
          | false => rfl
          | true => rw [isNull_iff.1 hother, beq_null, hnull] at h; cases h
      rw [strip_leaf ha, strip_leaf hb, hnull]
      split
      · rfl
      · exact h

end Json

end ControlLoop
