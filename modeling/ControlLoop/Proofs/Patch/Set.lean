import ControlLoop.Patch.Basic
import ControlLoop.Proofs.Json.Walk

/-!
# Setting a field

Setting a field of a patch is seen at that field and past it. Above the field
the patch holds objects afterwards, whatever was there, and apart from the field
it holds what it held.
-/

set_option autoImplicit false

namespace ControlLoop

namespace Patch

/-- What is set at the first key of a path: the value itself, or an object with the value inside. -/
def setInside (held : Option Json) : List String → Json → Json
  | [], value => value
  | k :: ks, value => .object (setKeys (held.getD .null).fields (k :: ks) value)

theorem setKeys_cons (fields : Fields Json) (k : String) (ks : List String) (value : Json) :
    setKeys fields (k :: ks) value = fields.insert k (setInside (fields.get? k) ks value) := by
  cases ks <;> rfl

theorem get?_setKeys_head (fields : Fields Json) (k : String) (ks : List String) (value : Json) :
    (setKeys fields (k :: ks) value).get? k = some (setInside (fields.get? k) ks value) := by
  rw [setKeys_cons, Fields.get?_insert, if_pos rfl]

theorem get?_setKeys_other (fields : Fields Json) {k j : String} (ks : List String) (value : Json)
    (h : j ≠ k) : (setKeys fields (k :: ks) value).get? j = fields.get? j := by
  rw [setKeys_cons, Fields.get?_insert, if_neg h]

/-- A path apart from the field reads what it read before. -/
theorem get?_setKeys_apart (fields : Fields Json) (p q : List String) (value : Json)
    (h : FieldPath.Apart ⟨p⟩ ⟨q⟩) :
    (Json.object (setKeys fields p value)).get? q = (Json.object fields).get? q := by
  induction p generalizing fields q with
  | nil => exact absurd h (FieldPath.not_apart_nil _)
  | cons k ks ih =>
    obtain ⟨_, _, j, js, -, rfl⟩ := h.exists_cons
    rw [Json.get?_cons, Json.get?_cons, Json.fields_object, Json.fields_object]
    by_cases hj : j = k
    · subst hj
      have hrest := FieldPath.apart_cons.1 h rfl
      obtain ⟨k', ks', j', js', rfl, rfl⟩ := hrest.exists_cons
      rw [get?_setKeys_head, Option.bind_some, setInside, ih _ _ hrest]
      exact Json.get?_getD_null (fields.get? j) j' js'
    · rw [get?_setKeys_other fields ks value hj]

/-- What is read past a field that was set is read in the value. -/
theorem get?_setKeys_past (fields : Fields Json) {p : List String} (r : List String) (value : Json)
    (h : p ≠ []) : (Json.object (setKeys fields p value)).get? (p ++ r) = value.get? r := by
  induction p generalizing fields with
  | nil => exact absurd rfl h
  | cons k ks ih =>
    rw [List.cons_append, Json.get?_cons, Json.fields_object, get?_setKeys_head, Option.bind_some]
    cases ks with
    | nil => rfl
    | cons k' ks' => exact ih _ (List.cons_ne_nil k' ks')

/-- What is held inside a field counts as it does after the field has become an object. -/
theorem fields_get?_object_fields (held : Option Json) (path : List String) :
    (((Json.object (held.getD .null).fields).get? path).getD .null).fields =
      ((held.bind fun child => child.get? path).getD .null).fields := by
  cases path with
  | nil => cases held <;> rfl
  | cons k ks => rw [← Json.get?_getD_null, Json.get?_cons, Json.get?_cons, Json.fields_object]

/-- Above a field, the rest of the path is set inside what is held there. -/
theorem get?_setKeys_inside (fields : Fields Json) (p : List String) (k : String)
    (r : List String) (value : Json) :
    (Json.object (setKeys fields (p ++ k :: r) value)).get? p =
      some (.object
        (setKeys (((Json.object fields).get? p).getD .null).fields (k :: r) value)) := by
  induction p generalizing fields with
  | nil => rfl
  | cons j js ih =>
    obtain ⟨j', js', hjs⟩ : ∃ j' js', js ++ k :: r = j' :: js' :=
      List.exists_cons_of_ne_nil (by simp)
    rw [List.cons_append, Json.get?_cons, Json.fields_object, get?_setKeys_head, Option.bind_some,
      hjs, setInside, ← hjs, ih, fields_get?_object_fields, Json.get?_cons, Json.fields_object]

/-- Above the field there are objects. -/
theorem get?_setKeys_above (fields : Fields Json) (p : List String) (k : String) (r : List String)
    (value : Json) : ∃ inner, (Json.object (setKeys fields (p ++ k :: r) value)).get? p =
      some (.object inner) :=
  ⟨_, get?_setKeys_inside fields p k r value⟩

section OneAfterTheOther

variable {α : Type} (field : α → FieldPath) (value : α → Json) (patch : Patch)

/-- A path apart from all the fields that are set reads what it read before. -/
theorem get?_foldl_set_apart {items : List α} {q : List String}
    (h : ∀ x ∈ items, (field x).Apart ⟨q⟩) :
    (items.foldl (fun patch x => patch.set (field x) (value x)) patch).toJson.get? q =
      patch.toJson.get? q := by
  induction items generalizing patch with
  | nil => rfl
  | cons x items ih =>
    rw [List.foldl_cons, ih _ fun y hy => h y (List.mem_cons_of_mem _ hy)]
    exact get?_setKeys_apart patch.fields _ q (value x) (h x List.mem_cons_self)

/-- Of fields that are apart from each other each reads its value in the end. -/
theorem get?_foldl_set_past {items : List α} {x : α} (hx : x ∈ items) (hroot : (field x).keys ≠ [])
    (hapart : items.Pairwise fun x y => (field x).Apart (field y)) (r : List String) :
    (items.foldl (fun patch x => patch.set (field x) (value x)) patch).toJson.get?
      ((field x).keys ++ r) = (value x).get? r := by
  induction items generalizing patch with
  | nil => cases hx
  | cons y items ih =>
    rw [List.pairwise_cons] at hapart
    rw [List.foldl_cons]
    rcases List.mem_cons.1 hx with rfl | hx
    · rw [get?_foldl_set_apart field value _ fun z hz => (hapart.1 z hz).symm.append_right r]
      exact get?_setKeys_past patch.fields r (value x) hroot
    · exact ih _ hx hapart.2

end OneAfterTheOther

theorem isEmpty_iff {patch : Patch} : patch.isEmpty = true ↔ ∀ k, patch.fields.get? k = none := by
  simp only [isEmpty, Fields.isEmpty, KeySet.isEmpty_iff, Fields.get?_eq_none_iff]

/-- A patch that asks for something still does after more was asked for. -/
theorem isEmpty_set {patch : Patch} (path : FieldPath) (value : Json)
    (h : patch.isEmpty = false) : (patch.set path value).isEmpty = false := by
  rw [Bool.eq_false_iff, ne_eq, isEmpty_iff] at h ⊢
  intro hset
  apply h
  intro j
  obtain ⟨keys⟩ := path
  cases keys with
  | nil => exact hset j
  | cons k ks =>
    have hj := hset j
    by_cases hjk : j = k
    · subst hjk
      rw [set, get?_setKeys_head] at hj
      cases hj
    · rwa [set, get?_setKeys_other _ _ _ hjk] at hj

end Patch

end ControlLoop
