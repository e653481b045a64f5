import ControlLoop.FieldPath
import ControlLoop.Json.Basic

/-!
# Walking values

What is done with a value depends on whether it is an object: an object is gone
through field by field and anything else is taken as a whole. Proofs follow the
same two cases. A path leads from a value to one of the values inside it, and
two paths are apart if neither leads through the place of the other.
-/

set_option autoImplicit false

namespace ControlLoop

namespace Json

@[simp] theorem isNull_object (fs : Fields Json) : (object fs).isNull = false := rfl

/-- A fact about all values, from those that are no object and from objects whose fields have it. -/
@[elab_as_elim] theorem fieldsInduction {motive : Json → Prop}
    (leaf : ∀ value : Json, value.isObject = false → motive value)
    (object : ∀ fs : Fields Json, (∀ k child, fs.get? k = some child → motive child) →
      motive (.object fs))
    (value : Json) : motive value := by
  induction value with
  | obj keys value ih =>
    refine object ⟨keys, value⟩ fun k child h => ?_
    have hk : k ∈ (⟨keys, value⟩ : Fields Json).keys := Fields.isSome_get?.1 (by rw [h]; rfl)
    rw [Fields.get?_of_mem hk] at h
    rw [← Option.some.inj h]
    exact ih ⟨k, hk⟩
  | _ => exact leaf _ rfl

/-- What is absent counts as null, which is no object. -/
theorem exists_of_isObject_getD {held : Option Json}
    (h : (held.getD .null).isObject = true) : ∃ child, held = some child := by
  cases held with
  | none => cases h
  | some child => exact ⟨child, rfl⟩

/-- Whether two values are compared by their fields. -/
def BothObjects (a b : Json) : Prop := a.isObject = true ∧ b.isObject = true

theorem bothObjects_object (fs gs : Fields Json) : BothObjects (object fs) (object gs) := ⟨rfl, rfl⟩

/-- A fact about all pairs of values, from those that are not both objects and from objects that
have it at every key. What a key does not hold is null. -/
@[elab_as_elim] theorem pairInduction {motive : Json → Json → Prop}
    (whole : ∀ a b : Json, ¬ BothObjects a b → motive a b)
    (fields : ∀ fs gs : Fields Json,
      (∀ k, motive ((fs.get? k).getD .null) ((gs.get? k).getD .null)) →
      motive (.object fs) (.object gs))
    (a b : Json) : motive a b := by
  induction a using fieldsInduction generalizing b with
  | leaf a ha => exact whole a b fun h => Bool.false_ne_true (ha.symm.trans h.1)
  | object fs ih =>
    cases b using fieldsInduction with
    | leaf b hb => exact whole _ b fun h => Bool.false_ne_true (hb.symm.trans h.2)
    | object gs =>
      refine fields fs gs fun k => ?_
      cases hk : fs.get? k with
      | none => exact whole _ _ fun h => Bool.false_ne_true h.1
      | some child => exact ih k child hk _

theorem isNull_iff {value : Json} : value.isNull = true ↔ value = .null := by
  cases value <;> simp [isNull]

theorem isNull_of_isObject {value : Json} (h : value.isObject = true) : value.isNull = false := by
  cases value with
  | obj keys child => rfl
  | _ => cases h

theorem eq_object_of_isObject {value : Json} (h : value.isObject = true) :
    value = object value.fields := by
  cases value with
  | obj keys child => rfl
  | _ => cases h

/-- What is no object has no fields. -/
theorem get?_fields_leaf {value : Json} (h : value.isObject = false) (k : String) :
    value.fields.get? k = none := by
  cases value with
  | obj keys child => cases h
  | _ => exact Fields.get?_empty

/-- A path through a value that is no object leads nowhere. -/
theorem get?_leaf {value : Json} (h : value.isObject = false) (k : String) (ks : List String) :
    value.get? (k :: ks) = none := by
  rw [get?_cons, get?_fields_leaf h]; rfl

/-- What a path leads to is read past its first part. -/
theorem get?_append (value : Json) (p q : List String) :
    value.get? (p ++ q) = (value.get? p).bind fun child => child.get? q := by
  induction p generalizing value with
  | nil => rfl
  | cons k ks ih =>
    rw [List.cons_append, get?_cons, get?_cons]
    cases value.fields.get? k with
    | none => rfl
    | some child => exact ih child

/-- Nothing is read past a place that holds nothing, the same as past one that holds null. -/
theorem get?_getD_null (held : Option Json) (k : String) (ks : List String) :
    (held.getD .null).get? (k :: ks) = held.bind fun child => child.get? (k :: ks) := by
  cases held with
  | none => exact get?_leaf rfl k ks
  | some child => rfl

end Json

namespace FieldPath

/-- Neither path leads through the place of the other. -/
def Apart (p q : FieldPath) : Prop := ¬ p.keys <+: q.keys ∧ ¬ q.keys <+: p.keys

instance (p q : FieldPath) : Decidable (p.Apart q) := inferInstanceAs (Decidable (_ ∧ _))

theorem Apart.symm {p q : FieldPath} (h : p.Apart q) : q.Apart p := And.symm h

theorem not_apart_nil (q : FieldPath) : ¬ Apart ⟨[]⟩ q := fun h => h.1 List.nil_prefix

theorem Apart.exists_cons {ks js : List String} (h : Apart ⟨ks⟩ ⟨js⟩) :
    ∃ k ks' j js', ks = k :: ks' ∧ js = j :: js' := by
  obtain ⟨k, ks', rfl⟩ : ∃ k ks', ks = k :: ks' :=
    List.exists_cons_of_ne_nil fun hnil => not_apart_nil ⟨js⟩ (hnil ▸ h)
  obtain ⟨j, js', rfl⟩ : ∃ j js', js = j :: js' :=
    List.exists_cons_of_ne_nil fun hnil => not_apart_nil _ (hnil ▸ h.symm)
  exact ⟨k, ks', j, js', rfl, rfl⟩

/-- Paths with a common first key are apart if they are apart after it. -/
theorem apart_cons {k j : String} {ks js : List String} :
    Apart ⟨k :: ks⟩ ⟨j :: js⟩ ↔ (k = j → Apart ⟨ks⟩ ⟨js⟩) := by
  simp only [Apart, List.cons_prefix_cons]
  by_cases h : k = j
  · subst h; simp
  · simp [h, Ne.symm h]

theorem apart_append {p q r : List String} :
    Apart ⟨p ++ q⟩ ⟨p ++ r⟩ ↔ Apart ⟨q⟩ ⟨r⟩ := by
  simp only [Apart, List.prefix_append_right_inj]

/-- What is apart from a path is apart from every longer one. -/
theorem Apart.append_right {p q : List String} (h : Apart ⟨p⟩ ⟨q⟩) (r : List String) :
    Apart ⟨p⟩ ⟨q ++ r⟩ := by
  have hq : q <+: q ++ r := List.prefix_append q r
  constructor
  · intro hp
    rcases List.prefix_or_prefix_of_prefix hp hq with hpq | hqp
    · exact h.1 hpq
    · exact h.2 hqp
  · intro hp
    exact h.2 (hq.trans hp)

end FieldPath

end ControlLoop
