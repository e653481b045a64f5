import ControlLoop.Proofs.Patch.Along
import ControlLoop.Proofs.Patch.Set

/-!
# Overriding from above

A patch overrides a place from above if it holds something that is no object at
one of the place's ancestors: merging it then leaves nothing at the place. To
set another field below that ancestor puts an object in its stead. The ancestor
is merged into from then on, and the place keeps what the target held.
-/

set_option autoImplicit false

namespace ControlLoop

namespace Json

/-- On the common way to two places the patch holds something that is no object. -/
def Overrides (patch : Json) (p q : FieldPath) : Prop :=
  ∃ r, r <+: p.keys ∧ r <+: q.keys ∧ ∃ held, patch.get? r = some held ∧ held.isObject = false

theorem overrides_leaf {patch : Json} (h : patch.isObject = false) (p q : FieldPath) :
    patch.Overrides p q :=
  ⟨[], List.nil_prefix, List.nil_prefix, patch, rfl, h⟩

theorem overrides_object_cons {fs : Fields Json} {k j : String} {ks js : List String} :
    (object fs).Overrides ⟨k :: ks⟩ ⟨j :: js⟩ ↔
      k = j ∧ ∃ held, fs.get? k = some held ∧ held.Overrides ⟨ks⟩ ⟨js⟩ := by
  constructor
  · rintro ⟨r, hp, hq, leaf, hr, hleaf⟩
    cases r with
    | nil => cases Option.some.inj hr; cases hleaf
    | cons i is =>
      obtain ⟨rfl, hp'⟩ := List.cons_prefix_cons.1 hp
      obtain ⟨rfl, hq'⟩ := List.cons_prefix_cons.1 hq
      obtain ⟨held, hheld, hr⟩ := Option.bind_eq_some_iff.1 hr
      exact ⟨rfl, held, hheld, is, hp', hq', leaf, hr, hleaf⟩
  · rintro ⟨rfl, held, hheld, is, hp, hq, leaf, hr, hleaf⟩
    refine ⟨k :: is, List.cons_prefix_cons.2 ⟨rfl, hp⟩, List.cons_prefix_cons.2 ⟨rfl, hq⟩, leaf, ?_,
      hleaf⟩
    rw [get?_cons, fields_object, hheld]
    exact hr

/-- What is overridden is gone after the merge. -/
theorem get?_merge_of_overrides (target patch : Json) {p q : List String}
    (hpq : FieldPath.Apart ⟨p⟩ ⟨q⟩) (h : patch.Overrides ⟨p⟩ ⟨q⟩) :
    (target.merge patch).get? q = none := by
  obtain ⟨met, hp, ⟨rest, rfl⟩, held, hheld, hleaf⟩ := h
  -- The leaf is not the place itself, as that is not on the way to the other place.
  obtain ⟨k, ks, rfl⟩ : ∃ k ks, rest = k :: ks := by
    refine List.exists_cons_of_ne_nil fun hnil => hpq.2 ?_
    rwa [hnil, List.append_nil]
  cases patch using fieldsInduction with
  | leaf patch hpatch =>
    obtain ⟨_, _, j, js, -, hplace⟩ := hpq.exists_cons
    rw [hplace, merge_leaf target hpatch, get?_leaf hpatch]
  | object changes =>
    rw [get?_merge_append target hheld]
    cases hnull : held.isNull with
    | true => rw [isNull_iff.1 hnull]; rfl
    | false =>
      rw [mergeField_some _ hnull, merge_leaf _ hleaf, Option.bind_some, get?_leaf hleaf]

section SetInPatch

variable (target : Json) (changes : Fields Json) {p q : List String} (value : Json)

theorem get?_merge_setKeys_head (k k' : String) (ks js : List String) :
    (target.merge (object (Patch.setKeys changes (k :: k' :: ks) value))).get? (k :: js) =
      (((target.fields.get? k).getD .null).merge (object
        (Patch.setKeys ((changes.get? k).getD .null).fields (k' :: ks) value))).get? js := by
  rw [get?_merge_object_cons, Patch.get?_setKeys_head, Patch.setInside,
    mergeField_some _ (isNull_object _), Option.bind_some]

theorem get?_merge_setKeys_other {k j : String} (ks js : List String) (h : j ≠ k) :
    (target.merge (object (Patch.setKeys changes (k :: ks) value))).get? (j :: js) =
      (target.merge (object changes)).get? (j :: js) := by
  rw [get?_merge_object_cons, get?_merge_object_cons, Patch.get?_setKeys_other _ _ _ h]

/-- A patch that sets one field and nothing else leaves what is apart from it. -/
theorem get?_merge_setKeys_empty (hpq : FieldPath.Apart ⟨p⟩ ⟨q⟩) :
    (target.merge (object (Patch.setKeys .empty p value))).get? q = target.get? q := by
  induction p generalizing target q with
  | nil => exact absurd hpq (FieldPath.not_apart_nil _)
  | cons k ks ih =>
    obtain ⟨_, _, j, js, -, rfl⟩ := hpq.exists_cons
    by_cases hj : j = k
    · subst hj
      have hrest := FieldPath.apart_cons.1 hpq rfl
      obtain ⟨k', ks', j', js', rfl, rfl⟩ := hrest.exists_cons
      rw [get?_merge_setKeys_head, Fields.get?_empty]
      exact (ih _ hrest).trans (get?_getD_null _ j' js')
    · rw [get?_merge_setKeys_other _ _ _ _ _ hj, get?_merge_object_cons, Fields.get?_empty]
      rfl

/-- To set a field on the way to which the patch overrode a place gives the place back. -/
theorem get?_merge_setKeys_of_overrides (hpq : FieldPath.Apart ⟨p⟩ ⟨q⟩)
    (h : (object changes).Overrides ⟨p⟩ ⟨q⟩) :
    (target.merge (object (Patch.setKeys changes p value))).get? q = target.get? q := by
  induction p generalizing target changes q with
  | nil => exact absurd hpq (FieldPath.not_apart_nil _)
  | cons k ks ih =>
    obtain ⟨_, _, j, js, -, rfl⟩ := hpq.exists_cons
    obtain ⟨rfl, held, hheld, h⟩ := overrides_object_cons.1 h
    have hrest := FieldPath.apart_cons.1 hpq rfl
    obtain ⟨k', ks', j', js', rfl, rfl⟩ := hrest.exists_cons
    rw [get?_merge_setKeys_head, hheld, Option.getD_some]
    refine Eq.trans ?_ (get?_getD_null (target.fields.get? k) j' js')
    cases held using fieldsInduction with
    | leaf held hleaf =>
      have hfields : held.fields = .empty := Fields.ext fun i => by
        rw [get?_fields_leaf hleaf, Fields.get?_empty]
      rw [hfields]
      exact get?_merge_setKeys_empty _ _ hrest
    | object inner => exact ih _ inner hrest h

/-- To set a field changes nothing of the merge at a place that the patch does not override. -/
theorem get?_merge_setKeys_of_not_overrides (hpq : FieldPath.Apart ⟨p⟩ ⟨q⟩)
    (h : ¬ (object changes).Overrides ⟨p⟩ ⟨q⟩) :
    (target.merge (object (Patch.setKeys changes p value))).get? q =
      (target.merge (object changes)).get? q := by
  induction p generalizing target changes q with
  | nil => exact absurd hpq (FieldPath.not_apart_nil _)
  | cons k ks ih =>
    obtain ⟨_, _, j, js, -, rfl⟩ := hpq.exists_cons
    by_cases hj : j = k
    · subst hj
      have hrest := FieldPath.apart_cons.1 hpq rfl
      obtain ⟨k', ks', j', js', rfl, rfl⟩ := hrest.exists_cons
      rw [get?_merge_setKeys_head, get?_merge_object_cons target changes]
      cases hheld : changes.get? j with
      | none =>
        rw [mergeField_none]
        exact (get?_merge_setKeys_empty _ _ hrest).trans (get?_getD_null _ j' js')
      | some held =>
        have hinner : ¬ held.Overrides ⟨k' :: ks'⟩ ⟨j' :: js'⟩ := fun hover =>
          h (overrides_object_cons.2 ⟨rfl, held, hheld, hover⟩)
        cases held using fieldsInduction with
        | leaf held hleaf => exact absurd (overrides_leaf hleaf _ _) hinner
        | object inner =>
          rw [mergeField_some _ (isNull_object _), Option.bind_some]
          exact ih _ inner hrest hinner
    · exact get?_merge_setKeys_other _ _ _ _ _ hj

end SetInPatch

section SetApart

variable {patch : Patch} {p q : FieldPath} (value : Json)

/-- Setting a field apart from a place makes the patch override the place nowhere anew. -/
theorem Overrides.of_set {r : FieldPath} (hpq : p.Apart q)
    (h : (patch.set p value).toJson.Overrides r q) : patch.toJson.Overrides r q := by
  obtain ⟨s, hr, hq, held, hs, hleaf⟩ := h
  refine ⟨s, hr, hq, held, ?_, hleaf⟩
  by_cases hsp : s <+: p.keys
  · obtain ⟨t, ht⟩ := hsp
    cases t with
    | nil => exact absurd hq (by rw [List.append_nil] at ht; exact ht ▸ hpq.1)
    | cons k ks =>
      obtain ⟨inner, hinner⟩ := Patch.get?_setKeys_above patch.fields s k ks value
      rw [ht] at hinner
      rw [Patch.toJson, Patch.set, hinner] at hs
      rw [← Option.some.inj hs] at hleaf
      cases hleaf
  · have hps : FieldPath.Apart p ⟨s⟩ := ⟨fun hp => hpq.1 (hp.trans hq), hsp⟩
    rwa [Patch.toJson, Patch.set, Patch.get?_setKeys_apart _ _ _ _ hps] at hs

/-- Where the patch overrides a place, it still does after a field was set, unless it overrode the
place on the way to the field. -/
theorem Overrides.set_or {r : FieldPath} (hpq : p.Apart q) (h : patch.toJson.Overrides r q) :
    patch.toJson.Overrides p q ∨ (patch.set p value).toJson.Overrides r q := by
  obtain ⟨s, hr, hq, held, hs, hleaf⟩ := h
  by_cases hsp : s <+: p.keys
  · exact Or.inl ⟨s, hsp, hq, held, hs, hleaf⟩
  · have hps : FieldPath.Apart p ⟨s⟩ := ⟨fun hp => hpq.1 (hp.trans hq), hsp⟩
    refine Or.inr ⟨s, hr, hq, held, ?_, hleaf⟩
    rw [Patch.toJson, Patch.set, Patch.get?_setKeys_apart _ _ _ _ hps]
    exact hs

/-- Fields that are set one after the other change nothing of the merge at a place apart from them
all, if the patch overrides the place on the way to none of them. -/
theorem get?_merge_foldl_set_apart (target : Json) {fields : List FieldPath} {place : FieldPath}
    (hapart : ∀ field ∈ fields, field.Apart place)
    (hover : ∀ field ∈ fields, ¬ patch.toJson.Overrides field place) :
    (target.merge (fields.foldl (fun patch field => patch.set field value) patch).toJson).get?
      place.keys = (target.merge patch.toJson).get? place.keys := by
  induction fields generalizing patch with
  | nil => rfl
  | cons field fields ih =>
    have hfirst := hapart field List.mem_cons_self
    have hrest : ∀ other ∈ fields, ¬ (patch.set field value).toJson.Overrides other place := by
      intro other hother hset
      exact hover other (List.mem_cons_of_mem _ hother) (hset.of_set value hfirst)
    rw [List.foldl_cons,
      ih (fun other hother => hapart other (List.mem_cons_of_mem _ hother)) hrest]
    exact get?_merge_setKeys_of_not_overrides target patch.fields value hfirst
      (hover field List.mem_cons_self)

end SetApart

section OfNothing

/-- A patch that asks for nothing overrides nothing. -/
theorem not_overrides_empty (p q : FieldPath) : ¬ Patch.empty.toJson.Overrides p q := by
  rintro ⟨r, -, -, held, hr, hleaf⟩
  cases r with
  | nil =>
    have hheld : Patch.empty.toJson = held := Option.some.inj hr
    rw [← hheld] at hleaf
    cases hleaf
  | cons k ks =>
    rw [get?_cons] at hr
    cases hr

theorem get?_merge_empty (target : Json) (k : String) (ks : List String) :
    (target.merge Patch.empty.toJson).get? (k :: ks) = target.get? (k :: ks) := by
  rw [Patch.toJson, get?_merge_object_cons]
  rfl

end OfNothing

end Json

end ControlLoop
