import ControlLoop.Proofs.Patch.Set

/-!
# What setting a field does and leaves alone

To set a field and to read one fit together. The field reads the value, and past
it the value is read. Above the field the objects keep their other members, and
where there was none there is one now. Nothing else reads differently. Fields
that are apart may be set in either order, and of two values for one field the
later stands.
-/

set_option autoImplicit false

namespace ControlLoop

namespace Fields

variable {α : Type} (fs : Fields α)

theorem insert_insert (k : String) (v w : α) : (fs.insert k v).insert k w = fs.insert k w := by
  ext1 j
  simp only [get?_insert]
  split <;> rfl

theorem insert_comm {k j : String} (h : k ≠ j) (v w : α) :
    (fs.insert k v).insert j w = (fs.insert j w).insert k v := by
  ext1 i
  simp only [get?_insert]
  by_cases hi : i = k
  · have hij : i ≠ j := hi ▸ h
    rw [if_neg hij, if_pos hi, if_pos hi]
  · rw [if_neg hi, if_neg hi]

end Fields

namespace Patch

/-- Of two values for one field the later stands. -/
theorem setKeys_again (fields : Fields Json) (p : List String) (value later : Json) :
    setKeys (setKeys fields p value) p later = setKeys fields p later := by
  induction p generalizing fields with
  | nil => rfl
  | cons k ks ih =>
    rw [setKeys_cons, get?_setKeys_head, setKeys_cons, setKeys_cons, Fields.insert_insert]
    cases ks with
    | nil => rfl
    | cons k' ks' =>
      rw [setInside, setInside, setInside, Option.getD_some, Json.fields_object, ih]

/-- Fields that are apart may be set in either order. -/
theorem setKeys_comm (fields : Fields Json) {p q : List String}
    (h : FieldPath.Apart ⟨p⟩ ⟨q⟩) (value other : Json) :
    setKeys (setKeys fields p value) q other = setKeys (setKeys fields q other) p value := by
  induction p generalizing fields q with
  | nil => exact absurd h (FieldPath.not_apart_nil _)
  | cons k ks ih =>
    obtain ⟨_, _, j, js, -, rfl⟩ := h.exists_cons
    rw [setKeys_cons _ j, setKeys_cons _ k, setKeys_cons _ k, setKeys_cons fields j]
    by_cases hkj : k = j
    · subst hkj
      have hrest := FieldPath.apart_cons.1 h rfl
      obtain ⟨k', ks', j', js', rfl, rfl⟩ := hrest.exists_cons
      rw [Fields.get?_insert, if_pos rfl, Fields.get?_insert, if_pos rfl, Fields.insert_insert,
        Fields.insert_insert, setInside, setInside, setInside, setInside, Option.getD_some,
        Option.getD_some, Json.fields_object, Json.fields_object, ih _ hrest]
    · rw [Fields.get?_insert, if_neg (Ne.symm hkj), Fields.get?_insert, if_neg hkj,
        Fields.insert_comm _ hkj]

theorem get?_cons (patch : Patch) (k : String) (ks : List String) :
    patch.get? ⟨k :: ks⟩ = patch.toJson.get? (k :: ks) := rfl

/-- To set a field and to read a field fit together, whatever the patch holds. The value is read at
the field and past it, and apart from the field nothing reads differently. Above it, short of the
root, there are objects, and one that was there keeps all members but the one on the way to the
field. Sets at fields that are apart may change places, of two sets at one field the later stands,
and to set the root changes nothing. -/
theorem set_lawful (patch : Patch) (field : FieldPath) (value : Json) :
    (field.isRoot = false → ∀ rest,
      (patch.set field value).get? ⟨field.keys ++ rest⟩ = value.get? rest) ∧
    (∀ path, field.Apart path → (patch.set field value).get? path = patch.get? path) ∧
    (∀ above k rest, above ≠ [] → field.keys = above ++ k :: rest →
      ∃ inner, (patch.set field value).get? ⟨above⟩ = some (.object inner) ∧
        ∀ held, patch.get? ⟨above⟩ = some (.object held) →
          ∀ j, j ≠ k → inner.get? j = held.get? j) ∧
    (∀ other content, field.Apart other →
      (patch.set field value).set other content = (patch.set other content).set field value) ∧
    (∀ later, (patch.set field value).set field later = patch.set field later) ∧
    patch.set .root value = patch := by
  obtain ⟨fields⟩ := patch
  obtain ⟨keys⟩ := field
  refine ⟨fun hroot rest => ?_, fun path hapart => ?_, fun above k rest habove hkeys => ?_,
    fun other content hapart => ?_, fun later => ?_, rfl⟩
  · obtain ⟨k, ks, rfl⟩ := List.exists_cons_of_ne_nil (List.isEmpty_eq_false_iff.1 hroot)
    rw [List.cons_append, get?_cons]
    exact get?_setKeys_past fields rest value (List.cons_ne_nil k ks)
  · obtain ⟨path⟩ := path
    obtain ⟨_, _, j, js, -, rfl⟩ := hapart.exists_cons
    exact get?_setKeys_apart fields keys (j :: js) value hapart
  · obtain ⟨i, is, rfl⟩ := List.exists_cons_of_ne_nil habove
    obtain rfl : keys = i :: is ++ k :: rest := hkeys
    refine ⟨_, get?_setKeys_inside fields (i :: is) k rest value, fun held hheld j hj => ?_⟩
    have hbefore : (Json.object fields).get? (i :: is) = some (.object held) := hheld
    rw [hbefore, Option.getD_some, Json.fields_object, get?_setKeys_other held rest value hj]
  · exact Patch.ext (setKeys_comm fields hapart value content)
  · exact Patch.ext (setKeys_again fields keys value later)

/-- A patch with a number where the field below needs an object. -/
def oneReplica : Patch :=
  ⟨.ofList [("metadata", .objectOfList [("labels", .objectOfList [("app", .str "web")]),
      ("name", .null)]),
    ("spec", .num (.integer 1))]⟩

/-- A label is set beside another, past it nothing is read, the number is as it was until a field
under it is set, and of two texts for the label the later stands. -/
theorem oneReplica_relabelled :
    let label : FieldPath := ⟨["metadata", "labels", "tier"]⟩
    let replicas : FieldPath := ⟨["spec", "replicas"]⟩
    label.isRoot = false ∧ label.Apart ⟨["spec"]⟩ ∧ label.Apart replicas ∧
      (oneReplica.set label (.str "front")).get? ⟨label.keys ++ ["x"]⟩ = none ∧
      (oneReplica.set label (.str "front")).get? ⟨["spec"]⟩ = some (.num (.integer 1)) ∧
      (∃ inner, (oneReplica.set label (.str "front")).get? ⟨["metadata", "labels"]⟩ =
        some (.object inner) ∧ inner.get? "app" = some (.str "web")) ∧
      (oneReplica.set label (.str "front")).set replicas (.num (.integer 3)) =
        (oneReplica.set replicas (.num (.integer 3))).set label (.str "front") := by
  intro label replicas
  obtain ⟨hpast, hapart, habove, hcomm, -, -⟩ := set_lawful oneReplica label (.str "front")
  have hspec : label.Apart ⟨["spec"]⟩ := by decide
  have hreplicas : label.Apart replicas := by decide
  obtain ⟨inner, hinner, hkept⟩ := habove ["metadata", "labels"] "tier" [] (by decide) rfl
  have happ := hkept (.ofList [("app", .str "web")]) rfl "app" (by decide)
  exact ⟨rfl, hspec, hreplicas, hpast rfl ["x"], hapart _ hspec,
    ⟨inner, hinner, happ⟩, hcomm _ _ hreplicas⟩

end Patch

end ControlLoop
