import ControlLoop.Proofs.Store.Settled
import ControlLoop.Settings.Basic

/-!
# Collapsing fields that are left empty

The collapsing fields are looked at one after the other, each as often as it is
listed. A field that holds nothing is removed, which may take the last member
from the object around it. If that object is itself a collapsing field and its
turn is over, it stays behind empty. This happens in no other way, and not at
all if every field is listed after its members.
-/

set_option autoImplicit false

namespace ControlLoop

namespace Json

/-- At a path there is an empty array or an empty object. -/
def HoldsEmpty (value : Json) (path : List String) : Prop :=
  ∃ child, value.get? path = some child ∧ child.isEmptyContainer = true

/-- At a path there is an object with one key, which holds an empty array or an empty object. -/
def HoldsLast (value : Json) (path : List String) (k : String) : Prop :=
  ∃ fs child, value.get? path = some (object fs) ∧ fs.get? k = some child ∧
    child.isEmptyContainer = true ∧ ∀ j, j ≠ k → fs.get? j = none

variable {value : Json} {path place : List String} {k j : String} {ks js : List String}

theorem holdsEmpty_nil : value.HoldsEmpty [] ↔ value.isEmptyContainer = true := by
  simp [HoldsEmpty]

theorem holdsEmpty_cons :
    value.HoldsEmpty (k :: ks) ↔
      ∃ child, value.fields.get? k = some child ∧ child.HoldsEmpty ks := by
  simp only [HoldsEmpty, get?_cons, Option.bind_eq_some_iff]
  constructor
  · rintro ⟨held, ⟨child, hchild, hheld⟩, hempty⟩
    exact ⟨child, hchild, held, hheld, hempty⟩
  · rintro ⟨child, hchild, held, hheld, hempty⟩
    exact ⟨held, ⟨child, hchild, hheld⟩, hempty⟩

theorem holdsLast_object {fs : Fields Json} :
    (object fs).HoldsLast [] k ↔ ∃ child, fs.get? k = some child ∧
      child.isEmptyContainer = true ∧ ∀ j, j ≠ k → fs.get? j = none := by
  simp only [HoldsLast, get?_nil, Option.some.injEq, object_inj]
  constructor
  · rintro ⟨_, child, rfl, hlast⟩
    exact ⟨child, hlast⟩
  · rintro ⟨child, hlast⟩
    exact ⟨fs, child, rfl, hlast⟩

theorem holdsLast_cons :
    value.HoldsLast (j :: js) k ↔
      ∃ child, value.fields.get? j = some child ∧ child.HoldsLast js k := by
  simp only [HoldsLast, get?_cons, Option.bind_eq_some_iff]
  constructor
  · rintro ⟨fs, last, ⟨child, hchild, hheld⟩, hlast⟩
    exact ⟨child, hchild, fs, last, hheld, hlast⟩
  · rintro ⟨child, hchild, fs, last, hheld, hlast⟩
    exact ⟨fs, last, ⟨child, hchild, hheld⟩, hlast⟩

theorem isEmptyContainer_object_iff {fs : Fields Json} :
    (object fs).isEmptyContainer = true ↔ ∀ k, fs.get? k = none := by
  simp only [Fields.get?_eq_none_iff]
  exact KeySet.isEmpty_iff

/-- Nothing is held inside an empty container. -/
theorem not_holdsEmpty_cons (h : value.isEmptyContainer = true) : ¬ value.HoldsEmpty (k :: ks) := by
  rw [holdsEmpty_cons]
  rintro ⟨child, hchild, -⟩
  cases value using fieldsInduction with
  | leaf value hleaf => rw [get?_fields_leaf hleaf] at hchild; cases hchild
  | object fs =>
    rw [fields_object, isEmptyContainer_object_iff.1 h k] at hchild
    cases hchild

/-- A field is gone after the collapsing of a place in it if it was absent, or if it is the place
and holds an empty container. -/
theorem collapseField_eq_none_iff {held : Option Json} :
    collapseField held ks = none ↔ held = none ∨
      ks = [] ∧ ∃ child, held = some child ∧ child.isEmptyContainer = true := by
  cases held <;> cases ks <;> simp [collapseField, Option.filter_some]

/-- Collapsing a place empties the root if the place was all that the root held. -/
theorem isEmptyContainer_collapseEmpty :
    (value.collapseEmpty (k :: ks)).isEmptyContainer = true ↔
      value.isEmptyContainer = true ∨ ks = [] ∧ value.HoldsLast [] k := by
  cases value using fieldsInduction with
  | leaf value hleaf =>
    rw [collapseEmpty_leaf hleaf]
    refine ⟨Or.inl, fun h => h.resolve_right ?_⟩
    rintro ⟨-, fs, _, hvalue, -⟩
    rw [Option.some.inj hvalue] at hleaf
    cases hleaf
  | object fs =>
    obtain ⟨after, hafter, hfields⟩ := collapseEmpty_object fs k ks
    rw [hafter, isEmptyContainer_object_iff, isEmptyContainer_object_iff, holdsLast_object]
    have hsplit : (∀ j, after.get? j = none) ↔
        collapseField (fs.get? k) ks = none ∧ ∀ j, j ≠ k → fs.get? j = none := by
      constructor
      · intro hnone
        refine ⟨by rw [← hnone k, hfields, if_pos rfl], fun j hj => ?_⟩
        rw [← hnone j, hfields, if_neg hj]
      · rintro ⟨hk, hother⟩ j
        rw [hfields]
        split
        · exact hk
        · next hj => exact hother j hj
    rw [hsplit, collapseField_eq_none_iff]
    constructor
    · rintro ⟨hk | ⟨rfl, child, hchild, hempty⟩, hother⟩
      · refine Or.inl fun j => ?_
        by_cases hj : j = k
        · rw [hj, hk]
        · exact hother j hj
      · exact Or.inr ⟨rfl, child, hchild, hempty, hother⟩
    · rintro (hnone | ⟨rfl, child, hchild, hempty, hother⟩)
      · exact ⟨Or.inl (hnone k), fun j _ => hnone j⟩
      · exact ⟨Or.inr ⟨rfl, child, hchild, hempty⟩, hother⟩

/-- What the collapsing of a place in one field makes of the places there, if it is known for the
value that the field holds. -/
theorem holdsEmpty_collapseField {held : Option Json}
    (inside : ∀ value : Json, ks ≠ [] → ((value.collapseEmpty ks).HoldsEmpty js ↔
      ks ≠ js ∧ value.HoldsEmpty js ∨ ∃ i, ks = js ++ [i] ∧ value.HoldsLast js i)) :
    (∃ child, collapseField held ks = some child ∧ child.HoldsEmpty js) ↔
      ∃ child, held = some child ∧
        (ks ≠ js ∧ child.HoldsEmpty js ∨ ∃ i, ks = js ++ [i] ∧ child.HoldsLast js i) := by
  cases held with
  | none => cases ks <;> simp [collapseField]
  | some child =>
    cases ks with
    | cons k ks => simp [collapseField, inside]
    | nil =>
      cases js with
      | nil => simp [collapseField, holdsEmpty_nil, Option.filter_some]
      | cons j js =>
        -- The field itself was looked at. If it is gone, there was no place in it.
        cases hempty : child.isEmptyContainer with
        | true => simp [collapseField, Option.filter_some, hempty, not_holdsEmpty_cons hempty]
        | false => simp [collapseField, Option.filter_some, hempty]

/-- After a place was collapsed, another place is an empty container if it was one before, or if it
lost its last member. -/
theorem holdsEmpty_collapseEmpty (h : place ≠ [] ∨ path ≠ []) :
    (value.collapseEmpty place).HoldsEmpty path ↔
      place ≠ path ∧ value.HoldsEmpty path ∨ ∃ k, place = path ++ [k] ∧ value.HoldsLast path k := by
  induction place generalizing value path with
  | nil =>
    have hpath : path ≠ [] := h.resolve_left fun hnil => hnil rfl
    simp [collapseEmpty, hpath.symm]
  | cons k ks ih =>
    cases path with
    | nil =>
      rw [holdsEmpty_nil, holdsEmpty_nil, isEmptyContainer_collapseEmpty]
      constructor
      · rintro (hempty | ⟨rfl, hlast⟩)
        · exact Or.inl ⟨List.cons_ne_nil k ks, hempty⟩
        · exact Or.inr ⟨k, rfl, hlast⟩
      · rintro (⟨-, hempty⟩ | ⟨i, hplace, hlast⟩)
        · exact Or.inl hempty
        · obtain ⟨rfl, rfl⟩ := List.cons.inj hplace
          exact Or.inr ⟨rfl, hlast⟩
    | cons j js =>
      cases value using fieldsInduction with
      | leaf value hleaf =>
        simp [collapseEmpty_leaf hleaf, holdsEmpty_cons, holdsLast_cons, get?_fields_leaf hleaf]
      | object fs =>
        obtain ⟨after, hafter, hfields⟩ := collapseEmpty_object fs k ks
        simp only [hafter, holdsEmpty_cons, holdsLast_cons, fields_object, hfields,
          List.cons_append, List.cons.injEq]
        by_cases hj : j = k
        · subst hj
          rw [if_pos rfl, holdsEmpty_collapseField fun value hks => ih (Or.inl hks)]
          constructor
          · rintro ⟨child, hchild, ⟨hks, hempty⟩ | ⟨i, hks, hlast⟩⟩
            · exact Or.inl ⟨fun heq => hks (List.cons.inj heq).2, child, hchild, hempty⟩
            · exact Or.inr ⟨i, ⟨rfl, hks⟩, child, hchild, hlast⟩
          · rintro (⟨hks, child, hchild, hempty⟩ | ⟨i, ⟨-, hks⟩, child, hchild, hlast⟩)
            · exact ⟨child, hchild, Or.inl ⟨fun heq => hks (congrArg _ heq), hempty⟩⟩
            · exact ⟨child, hchild, Or.inr ⟨i, hks, hlast⟩⟩
        · simp [hj, Ne.symm hj]

/-- Collapsing a place changes nothing unless there is an empty container. -/
theorem collapseEmpty_of_not_holdsEmpty (h : ¬ value.HoldsEmpty place) :
    value.collapseEmpty place = value := by
  induction place generalizing value with
  | nil => rfl
  | cons k ks ih =>
    cases value using fieldsInduction with
    | leaf value hleaf => exact collapseEmpty_leaf hleaf _
    | object fs =>
      obtain ⟨after, hafter, hfields⟩ := collapseEmpty_object fs k ks
      rw [hafter, object_inj]
      ext1 j
      rw [hfields]
      split
      · next hj =>
        subst hj
        cases hchild : fs.get? j with
        | none => cases ks <;> rfl
        | some child =>
          have hinside : ¬ child.HoldsEmpty ks := fun hempty =>
            h (holdsEmpty_cons.2 ⟨child, hchild, hempty⟩)
          cases ks with
          | nil =>
            rw [holdsEmpty_nil] at hinside
            simp [collapseField, Option.filter_some, hinside]
          | cons k' ks' => exact congrArg some (ih hinside)
      · rfl

/-- A value at a path, inside objects that hold nothing else. -/
def nested : List String → Json → Json
  | [], value => value
  | k :: ks, value => object (Fields.empty.insert k (nested ks value))

theorem get?_fields_nested_cons (value : Json) :
    (nested (k :: ks) value).fields.get? j = if j = k then some (nested ks value) else none := by
  rw [nested, fields_object, Fields.get?_insert, Fields.get?_empty]

/-- An empty object inside such objects is the only empty container there. -/
theorem eq_of_holdsEmpty_nested (h : (nested place emptyObject).HoldsEmpty path) :
    path = place := by
  induction place generalizing path with
  | nil =>
    cases path with
    | nil => rfl
    | cons j js => exact absurd h (not_holdsEmpty_cons rfl)
  | cons k ks ih =>
    cases path with
    | nil =>
      have hnone := isEmptyContainer_object_iff.1 (holdsEmpty_nil.1 h) k
      rw [Fields.get?_insert, if_pos rfl] at hnone
      cases hnone
    | cons j js =>
      obtain ⟨child, hchild, hempty⟩ := holdsEmpty_cons.1 h
      rw [get?_fields_nested_cons] at hchild
      split at hchild
      · next hj =>
        rw [← Option.some.inj hchild] at hempty
        rw [hj, ih hempty]
      · cases hchild

theorem holdsLast_nested (path : List String) (k : String) :
    (nested (path ++ [k]) emptyObject).HoldsLast path k := by
  induction path with
  | nil =>
    refine holdsLast_object.2 ⟨emptyObject, ?_, rfl, fun j hj => ?_⟩
    · rw [Fields.get?_insert, if_pos rfl]; rfl
    · rw [Fields.get?_insert, if_neg hj, Fields.get?_empty]
  | cons j js ih =>
    refine holdsLast_cons.2 ⟨_, ?_, ih⟩
    rw [List.cons_append, get?_fields_nested_cons, if_pos rfl]

end Json

/-- A path is one key longer than another. -/
def FieldPath.IsMemberOf (member field : FieldPath) : Prop := ∃ k, member = field.child k

instance (member field : FieldPath) : Decidable (member.IsMemberOf field) :=
  decidable_of_iff (∃ h : member.keys ≠ [], field.child (member.keys.getLast h) = member) <| by
    constructor
    · rintro ⟨h, hmember⟩
      exact ⟨_, hmember.symm⟩
    · rintro ⟨k, rfl⟩
      exact ⟨List.concat_ne_nil k field.keys, by simp [FieldPath.child]⟩

namespace Store

variable {collapsing : List FieldPath} {field : FieldPath} {value : Json}

/-- A field loses its last member when that is looked at, and is not looked at any more itself. -/
def EmptiedLate (collapsing : List FieldPath) (value : Json) (field : FieldPath) : Prop :=
  ∃ before k after, collapsing = before ++ field.child k :: after ∧ field ∉ after ∧
    (collapse before value).HoldsLast field.keys k

theorem emptiedLate_cons {first : FieldPath} {rest : List FieldPath} :
    EmptiedLate (first :: rest) value field ↔
      (∃ k, first = field.child k ∧ field ∉ rest ∧ value.HoldsLast field.keys k) ∨
        EmptiedLate rest (value.collapseEmpty first.keys) field := by
  constructor
  · rintro ⟨before, k, after, hfields, hafter, hlast⟩
    cases before with
    | nil =>
      obtain ⟨rfl, rfl⟩ := List.cons.inj hfields
      exact Or.inl ⟨k, rfl, hafter, hlast⟩
    | cons g before =>
      obtain ⟨rfl, rfl⟩ := List.cons.inj hfields
      exact Or.inr ⟨before, k, after, rfl, hafter, hlast⟩
  · rintro (⟨k, rfl, hrest, hlast⟩ | ⟨before, k, after, rfl, hafter, hlast⟩)
    · exact ⟨[], k, rest, rfl, hrest, hlast⟩
    · exact ⟨first :: before, k, after, rfl, hafter, hlast⟩

/-- Once the fields were looked at, a field is an empty container if it was one before and none of
them, or if it was emptied too late. -/
theorem holdsEmpty_collapse (hroot : field.isRoot = false) :
    (collapse collapsing value).HoldsEmpty field.keys ↔
      field ∉ collapsing ∧ value.HoldsEmpty field.keys ∨ EmptiedLate collapsing value field := by
  have hkeys : field.keys ≠ [] := by simpa [FieldPath.isRoot] using hroot
  induction collapsing generalizing value with
  | nil => simp [collapse, EmptiedLate]
  | cons first rest ih =>
    show (collapse rest (value.collapseEmpty first.keys)).HoldsEmpty field.keys ↔ _
    refine ih.trans ?_
    rw [Json.holdsEmpty_collapseEmpty (Or.inr hkeys), emptiedLate_cons, ← or_assoc]
    refine or_congr_left ?_
    have hsame : first.keys = field.keys ↔ field = first := by
      rw [eq_comm]
      exact ⟨fun h => congrArg FieldPath.mk h, fun h => congrArg FieldPath.keys h⟩
    constructor
    · rintro ⟨hrest, ⟨hfirst, hempty⟩ | ⟨k, hfirst, hlast⟩⟩
      · refine Or.inl ⟨fun hmem => ?_, hempty⟩
        rcases List.mem_cons.1 hmem with heq | hmem
        · exact hfirst (hsame.2 heq)
        · exact hrest hmem
      · exact Or.inr ⟨k, congrArg FieldPath.mk hfirst, hrest, hlast⟩
    · rintro (⟨hmem, hempty⟩ | ⟨k, rfl, hrest, hlast⟩)
      · rw [List.mem_cons, not_or] at hmem
        exact ⟨hmem.2, Or.inl ⟨fun heq => hmem.1 (hsame.1 heq), hempty⟩⟩
      · exact ⟨hrest, Or.inr ⟨k, rfl, hlast⟩⟩

/-- No field is listed before one of its members. -/
def MembersFirst (collapsing : List FieldPath) : Prop :=
  collapsing.Pairwise fun field later => ¬ later.IsMemberOf field

instance : Decidable (MembersFirst collapsing) :=
  inferInstanceAs (Decidable (List.Pairwise _ _))

theorem MembersFirst.not_emptiedLate (h : MembersFirst collapsing) (hfield : field ∈ collapsing) :
    ¬ EmptiedLate collapsing value field := by
  rintro ⟨before, k, after, rfl, hafter, -⟩
  rcases List.mem_append.1 hfield with hbefore | hfield
  · exact (List.pairwise_append.1 h).2.2 field hbefore _ List.mem_cons_self ⟨k, rfl⟩
  · rcases List.mem_cons.1 hfield with hself | hmem
    · have hlength := congrArg (fun path => path.keys.length) hself
      simp [FieldPath.child] at hlength
    · exact hafter hmem

/-- Where there is no empty container, there is nothing to collapse. -/
theorem collapse_of_not_holdsEmpty (h : ∀ field ∈ collapsing, ¬ value.HoldsEmpty field.keys) :
    collapse collapsing value = value := by
  induction collapsing with
  | nil => rfl
  | cons first rest ih =>
    show collapse rest (value.collapseEmpty first.keys) = value
    rw [Json.collapseEmpty_of_not_holdsEmpty (h first List.mem_cons_self)]
    exact ih fun field hfield => h field (List.mem_cons_of_mem _ hfield)

/-- A field is emptied too late if its member alone is in the value, is not looked at earlier, and
the field is not looked at again. -/
theorem emptiedLate_nested {before after : List FieldPath} {k : String}
    (hbefore : field.child k ∉ before) (hafter : field ∉ after) :
    EmptiedLate (before ++ field.child k :: after) (.nested (field.child k).keys .emptyObject)
      field := by
  -- Nothing but the member is empty, so the fields before it change nothing.
  have hvalue : collapse before (.nested (field.child k).keys .emptyObject) =
      .nested (field.child k).keys .emptyObject := by
    refine collapse_of_not_holdsEmpty fun other hother hempty => hbefore ?_
    have hmember : other = field.child k :=
      congrArg FieldPath.mk (Json.eq_of_holdsEmpty_nested hempty)
    exact hmember ▸ hother
  refine ⟨before, k, after, rfl, hafter, ?_⟩
  rw [hvalue]
  exact Json.holdsLast_nested field.keys k

/-- Of fields that are listed once each, none is ever left empty just if every one of them is listed
after its members. -/
theorem none_left_empty_iff (hnodup : collapsing.Nodup)
    (hroot : ∀ field ∈ collapsing, field.isRoot = false) :
    (∀ value, ∀ field ∈ collapsing, ¬ (collapse collapsing value).HoldsEmpty field.keys) ↔
      MembersFirst collapsing := by
  constructor
  · intro hnone
    refine List.pairwise_iff_forall_sublist.2 ?_
    rintro field _ hsublist ⟨k, rfl⟩
    obtain ⟨before, rest, rfl, hfield, hmember⟩ := List.cons_sublist_iff.1 hsublist
    obtain ⟨between, after, rfl⟩ := List.append_of_mem (List.singleton_sublist.1 hmember)
    rw [← List.append_assoc] at hnone hnodup hroot
    have hapart := (List.nodup_append.1 hnodup).2.2
    have hearlier : field ∈ before ++ between := List.mem_append_left _ hfield
    have hmem : field ∈ before ++ between ++ field.child k :: after :=
      List.mem_append_left _ hearlier
    have hbefore : field.child k ∉ before ++ between := fun hmember =>
      hapart _ hmember _ List.mem_cons_self rfl
    have hafter : field ∉ after := fun hafter =>
      hapart _ hearlier _ (List.mem_cons_of_mem _ hafter) rfl
    have hlate := emptiedLate_nested hbefore hafter
    exact hnone _ field hmem ((holdsEmpty_collapse (hroot field hmem)).2 (Or.inr hlate))
  · intro hfirst value field hfield
    rw [holdsEmpty_collapse (hroot field hfield)]
    rintro (⟨hother, -⟩ | hlate)
    · exact hother hfield
    · exact hfirst.not_emptiedLate hfield hlate

/-- The fields that collapse by default are never left empty. -/
example : MembersFirst EffectsSettings.default.knownInconsistencies := by decide

/-- After a write a collapsing field is left empty just if it lost its last member after it was
looked at itself. If every field is listed after its members, none is left empty. -/
theorem left_empty_iff (store : Store) {body : Body} (hobject : store.object = some body)
    (hfailing : store.failing = none) (patch : Patch) :
    ∃ resulting, (store.patch patch).1 = .ok (some resulting) ∧
      (store.patch patch).2.object = some resulting ∧
      (∀ field ∈ store.collapsing, field.isRoot = false →
        (resulting.HoldsEmpty field.keys ↔
          EmptiedLate store.collapsing (body.merge patch.toJson) field)) ∧
      (MembersFirst store.collapsing → ∀ field ∈ store.collapsing, field.isRoot = false →
        ¬ resulting.HoldsEmpty field.keys) := by
  have hleft : ∀ field ∈ store.collapsing, field.isRoot = false →
      ((collapse store.collapsing (body.merge patch.toJson)).HoldsEmpty field.keys ↔
        EmptiedLate store.collapsing (body.merge patch.toJson) field) := by
    intro field hfield hroot
    rw [holdsEmpty_collapse hroot]
    exact ⟨fun h => h.resolve_left fun hother => hother.1 hfield, Or.inr⟩
  refine ⟨collapse store.collapsing (body.merge patch.toJson), ?_, ?_, hleft, ?_⟩
  · rw [Store.patch, hfailing, hobject]
  · rw [Store.patch, hfailing, hobject]
  · intro hfirst field hfield hroot hempty
    exact hfirst.not_emptiedLate hfield ((hleft field hfield hroot).1 hempty)

/-- A body whose metadata are a list. -/
def guarded : Body :=
  .objectOfList [("metadata", .objectOfList [("finalizers", .array [.str "hold"])])]

/-- A patch that empties the list. -/
def released : Patch := ⟨.ofList [("metadata", .objectOfList [("finalizers", .array [])])]⟩

/-- A store that looks at the list and then at the metadata around it. -/
def innerFirst : Store := .ofBody guarded [⟨["metadata", "finalizers"]⟩, ⟨["metadata"]⟩]

/-- The list goes, and the metadata go with it. -/
theorem released_innerFirst_leaves_none :
    innerFirst.object = some guarded ∧ innerFirst.failing = none ∧
      MembersFirst innerFirst.collapsing ∧
      ∃ resulting, (innerFirst.patch released).1 = .ok (some resulting) ∧
        ∀ field ∈ innerFirst.collapsing, ¬ resulting.HoldsEmpty field.keys := by
  have hfirst : MembersFirst innerFirst.collapsing := by decide
  obtain ⟨resulting, hwrite, -, -, hnone⟩ := left_empty_iff innerFirst rfl rfl released
  refine ⟨rfl, rfl, hfirst, resulting, hwrite, fun field hfield => ?_⟩
  have hroot : ∀ field ∈ innerFirst.collapsing, field.isRoot = false := by decide
  exact hnone hfirst field hfield (hroot field hfield)

/-- A store that looks at the metadata before the list in them. -/
def outerFirst : Store := .ofBody guarded [⟨["metadata"]⟩, ⟨["metadata", "finalizers"]⟩]

/-- The list goes, and the metadata are left empty. -/
theorem released_outerFirst_left_empty :
    (outerFirst.patch released).1 =
        .ok (some (.objectOfList [("metadata", .objectOfList [])])) ∧
      ∃ field ∈ outerFirst.collapsing, field.isRoot = false ∧
        (Json.objectOfList [("metadata", .objectOfList [])]).HoldsEmpty field.keys :=
  ⟨rfl, ⟨["metadata"]⟩, List.mem_cons_self, rfl, .objectOfList [], rfl, rfl⟩

end Store

end ControlLoop
