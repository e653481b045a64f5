import ControlLoop.Proofs.Patch.Merge

/-!
# Merging along a path

A path is followed through a patch from the root until something decides what
the merge leaves at the path. A null on the way removes whatever was there, and
any other value that is no object brings what it holds itself. An object that
lacks the next key leaves the place as it was in the target. If the path ends at
an object, there is an object after the merge.
-/

set_option autoImplicit false

namespace ControlLoop

namespace Json

/-- At a place that the patch holds, a merge leaves what the change there makes of what was held
there before. -/
theorem bind_mergeField_append (held : Option Json) {patch change : Json} {met : List String}
    (h : patch.get? met = some change) (rest : List String) :
    ((mergeField held (some patch)).bind fun value => value.get? (met ++ rest)) =
      (mergeField (held.bind fun value => value.get? met) (some change)).bind
        fun value => value.get? rest := by
  induction met generalizing held patch with
  | nil =>
    cases Option.some.inj h
    have hroot : (held.bind fun value => value.get? []) = held := Option.bind_fun_some held
    rw [hroot]
    rfl
  | cons k ks ih =>
    cases patch using fieldsInduction with
    | leaf patch hleaf => rw [get?_leaf hleaf] at h; cases h
    | object changes =>
      rw [get?_cons, fields_object] at h
      obtain ⟨child, hk, hchild⟩ := Option.bind_eq_some_iff.1 h
      rw [mergeField_some held (isNull_object changes), Option.bind_some, List.cons_append,
        get?_merge_object_cons, hk, ih _ hchild, ← get?_getD_null, get?_cons]

/-- The merge of an object, read past a place that the object holds. -/
theorem get?_merge_append (target : Json) {changes : Fields Json} {change : Json}
    {met : List String} (h : (object changes).get? met = some change) (rest : List String) :
    (target.merge (object changes)).get? (met ++ rest) =
      (mergeField (target.get? met) (some change)).bind fun value => value.get? rest := by
  have hmerge := bind_mergeField_append (some target) h rest
  rwa [mergeField_some _ (isNull_object changes)] at hmerge

/-- At a place that the patch holds, a merge leaves what the change there makes of the place. -/
theorem get?_merge_at (target : Json) {changes : Fields Json} {change : Json} {place : List String}
    (h : (object changes).get? place = some change) :
    (target.merge (object changes)).get? place =
      mergeField (target.get? place) (some change) := by
  have hmerge := get?_merge_append target h []
  rw [List.append_nil] at hmerge
  exact hmerge.trans (Option.bind_fun_some _)

/-- What decides, when a path is followed through a patch, what a merge leaves at the path. -/
inductive Encounter where
  /-- A null. -/
  | null
  /-- Another value that is no object, and what is left of the path. -/
  | leaf (value : Json) (rest : List String)
  /-- An object that lacks the next key. -/
  | gap
  /-- An object at the end of the path. -/
  | object

/-- A path that is followed through a patch meets something. -/
inductive Meets (patch : Json) (path : List String) : Encounter → Prop
  | null {met : List String} (on_path : met <+: path) (held : patch.get? met = some .null) :
      Meets patch path .null
  | leaf {met rest : List String} {value : Json} (on_path : met ++ rest = path)
      (held : patch.get? met = some value) (leaf : value.isObject = false)
      (present : value.isNull = false) : Meets patch path (.leaf value rest)
  | gap {met : List String} {k : String} {fields : Fields Json} (on_path : met ++ [k] <+: path)
      (held : patch.get? met = some (.object fields)) (lacking : fields.get? k = none) :
      Meets patch path .gap
  | object {fields : Fields Json} (held : patch.get? path = some (.object fields)) :
      Meets patch path .object

/-- What a merge leaves at a path by what was met, where the target held something or nothing. -/
def Encounter.Leaves (held left : Option Json) : Encounter → Prop
  | null => left = none
  | leaf value rest => left = value.get? rest
  | gap => left = held
  | object => ∃ fields : Fields Json, left = some (.object fields)

/-- What is met inside a field is met on the way through it. -/
theorem Meets.cons {changes : Fields Json} {k : String} {ks : List String} {child : Json}
    {encounter : Encounter} (hk : changes.get? k = some child) (h : child.Meets ks encounter) :
    (Json.object changes).Meets (k :: ks) encounter := by
  have hinside : ∀ path, (Json.object changes).get? (k :: path) = child.get? path := by
    intro path
    rw [get?_cons, fields_object, hk, Option.bind_some]
  cases h with
  | null on_path held => exact .null (List.cons_prefix_cons.2 ⟨rfl, on_path⟩) (hinside _ ▸ held)
  | @leaf met rest value on_path held leaf present =>
    exact .leaf (congrArg (k :: ·) on_path) (hinside _ ▸ held) leaf present
  | @gap met j fields on_path held lacking =>
    exact .gap (List.cons_prefix_cons.2 ⟨rfl, on_path⟩) (hinside _ ▸ held) lacking
  | object held => exact .object (hinside _ ▸ held)

theorem exists_meets_leaf {patch : Json} (h : patch.isObject = false) (path : List String) :
    ∃ encounter, patch.Meets path encounter := by
  cases hnull : patch.isNull with
  | true => exact ⟨.null, .null List.nil_prefix (congrArg some (isNull_iff.1 hnull))⟩
  | false => exact ⟨.leaf patch path, .leaf (List.nil_append path) (get?_nil patch) h hnull⟩

/-- Every path meets something in every value. -/
theorem exists_meets (patch : Json) (path : List String) :
    ∃ encounter, patch.Meets path encounter := by
  induction patch using fieldsInduction generalizing path with
  | leaf patch hleaf => exact exists_meets_leaf hleaf path
  | object changes ih =>
    cases path with
    | nil => exact ⟨.object, .object (get?_nil _)⟩
    | cons k ks =>
      cases hk : changes.get? k with
      | none => exact ⟨.gap, .gap (List.cons_prefix_cons.2 ⟨rfl, List.nil_prefix⟩) (get?_nil _) hk⟩
      | some child =>
        obtain ⟨encounter, hchild⟩ := ih k child hk ks
        exact ⟨encounter, hchild.cons hk⟩

/-- What is met decides what the merge leaves. -/
theorem Meets.leaves {changes : Fields Json} {path : List String} {encounter : Encounter}
    (h : (Json.object changes).Meets path encounter) (target : Json) :
    encounter.Leaves (target.get? path) ((target.merge (.object changes)).get? path) := by
  cases h with
  | null on_path held =>
    obtain ⟨rest, rfl⟩ := on_path
    exact get?_merge_append target held rest
  | @leaf met rest value on_path held leaf present =>
    subst on_path
    show (target.merge (.object changes)).get? (met ++ rest) = _
    rw [get?_merge_append target held, mergeField_some _ present, merge_leaf _ leaf,
      Option.bind_some]
  | @gap met k fields on_path held lacking =>
    obtain ⟨rest, rfl⟩ := on_path
    show _ = target.get? (met ++ [k] ++ rest)
    rw [List.append_assoc, get?_merge_append target held, mergeField_some _ (isNull_object fields),
      Option.bind_some, List.singleton_append, get?_merge_object_cons, lacking, mergeField_none,
      get?_append]
    exact get?_getD_null (target.get? met) k rest
  | @object fields held =>
    have hmerge := get?_merge_at target held
    rw [mergeField_some _ (isNull_object fields)] at hmerge
    exact ⟨_, hmerge.trans (congrArg some (merge_object _ fields))⟩

/-- Whatever path is followed through a patch, something is met that decides what the merge leaves
there: nothing after a null, what any other leaf holds at the rest of the path, what the target held
where the patch has no such key, and an object at an object of the patch. -/
theorem merge_along_path (target : Json) (patch : Patch) (path : List String) :
    (∃ encounter, patch.toJson.Meets path encounter) ∧
      ∀ encounter, patch.toJson.Meets path encounter →
        encounter.Leaves (target.get? path) ((target.merge patch.toJson).get? path) := by
  constructor
  · exact exists_meets patch.toJson path
  · intro encounter hmeets
    exact hmeets.leaves target

/-- A value with a text where the patch below has an object. -/
def deployed : Json :=
  .objectOfList [("metadata", .objectOfList [("labels", .objectOfList [("app", .str "web")])]),
    ("spec", .objectOfList [("hosts", .objectOfList [("a", .null)]), ("tier", .null)]),
    ("status", .str "Ready")]

/-- A patch with a null, an array, a gap and an object at which to decide. -/
def redeployment : Patch :=
  ⟨.ofList [("metadata", .objectOfList [("labels", .null)]),
    ("spec", .objectOfList [("hosts", .array [.null])]),
    ("status", .objectOfList [("phase", .null)])]⟩

/-- Of the labels nothing is left, the array has no key, the null that is not mentioned stays, and
the text has become an object. -/
theorem redeployment_along_paths :
    (redeployment.toJson.Meets ["metadata", "labels", "app"] .null ∧
      (deployed.merge redeployment.toJson).get? ["metadata", "labels", "app"] = none) ∧
    (redeployment.toJson.Meets ["spec", "hosts", "a"] (.leaf (.array [.null]) ["a"]) ∧
      (deployed.merge redeployment.toJson).get? ["spec", "hosts", "a"] = none) ∧
    (redeployment.toJson.Meets ["spec", "tier"] .gap ∧
      (deployed.merge redeployment.toJson).get? ["spec", "tier"] = some .null) ∧
    redeployment.toJson.Meets ["status"] .object ∧
      ∃ fs : Fields Json, (deployed.merge redeployment.toJson).get? ["status"] =
        some (.object fs) := by
  have hnull : redeployment.toJson.Meets ["metadata", "labels", "app"] .null :=
    .null (List.prefix_append ["metadata", "labels"] ["app"]) rfl
  have hleaf : redeployment.toJson.Meets ["spec", "hosts", "a"] (.leaf (.array [.null]) ["a"]) :=
    .leaf (List.append_assoc ["spec"] ["hosts"] ["a"]) rfl rfl rfl
  have hgap : redeployment.toJson.Meets ["spec", "tier"] .gap :=
    .gap (List.prefix_refl (["spec"] ++ ["tier"])) rfl rfl
  have hobject : redeployment.toJson.Meets ["status"] .object := .object rfl
  exact ⟨⟨hnull, (merge_along_path deployed redeployment _).2 _ hnull⟩,
    ⟨hleaf, (merge_along_path deployed redeployment _).2 _ hleaf⟩,
    ⟨hgap, (merge_along_path deployed redeployment _).2 _ hgap⟩,
    hobject, (merge_along_path deployed redeployment _).2 _ hobject⟩

end Json

end ControlLoop
