import ControlLoop.Body
import ControlLoop.Proofs.Diff.Items

/-!
# The places of a difference

Two values are compared at a place if both hold objects all the way to it, and
they are compared there as a whole if they are not both objects at the place
itself. An item says of such a place what either side holds there. No such place
lies on the way to another, so no field is reported twice, neither by itself nor
inside another.
-/

set_option autoImplicit false

namespace ControlLoop

namespace Json

/-- What a value holds at a path. What is absent is null. -/
def valueAt (value : Json) (path : List String) : Json := (value.get? path).getD .null

@[simp] theorem valueAt_nil (value : Json) : value.valueAt [] = value := rfl

@[simp] theorem valueAt_object_cons (fs : Fields Json) (k : String) (ks : List String) :
    (object fs).valueAt (k :: ks) = ((fs.get? k).getD .null).valueAt ks := by
  rw [valueAt, valueAt, get?_cons, fields_object]
  cases hk : fs.get? k with
  | none =>
    cases ks with
    | nil => rfl
    | cons j js => rw [Option.getD_none, get?_leaf rfl]; rfl
  | some child => rfl

theorem get?_of_valueAt_object {value : Json} {path : List String} {fs : Fields Json}
    (h : value.valueAt path = object fs) : value.get? path = some (object fs) := by
  rw [valueAt] at h
  obtain ⟨child, hheld⟩ := exists_of_isObject_getD (congrArg isObject h)
  rw [hheld, ← h, hheld, Option.getD_some]

theorem get?_concat_of_object {value : Json} {path : List String} {fs : Fields Json}
    (h : value.get? path = some (object fs)) (k : String) :
    value.get? (path ++ [k]) = fs.get? k := by
  rw [get?_append, h, Option.bind_some, get?_cons, fields_object]
  cases fs.get? k <;> rfl

theorem valueAt_concat (value : Json) (path : List String) (k : String) :
    value.valueAt (path ++ [k]) = ((value.valueAt path).fields.get? k).getD .null := by
  rw [valueAt, get?_append, valueAt]
  cases value.get? path with
  | none => rfl
  | some child =>
    rw [Option.bind_some, get?_cons, Option.getD_some]
    cases child.fields.get? k <;> rfl

/-- Two values are compared at a path: they hold objects all the way to it. -/
def ComparedAt (a b : Json) (path : List String) : Prop :=
  ∀ p, p <+: path → p ≠ path → BothObjects (a.valueAt p) (b.valueAt p)

/-- Two values differ at a path and are not compared any further there. -/
structure DifferAt (a b : Json) (path : List String) : Prop where
  compared : ComparedAt a b path
  differ : (a.valueAt path == b.valueAt path) = false
  lowest : ¬ BothObjects (a.valueAt path) (b.valueAt path)

theorem comparedAt_nil (a b : Json) : ComparedAt a b [] :=
  fun _ hp hne => absurd (List.prefix_nil.1 hp) hne

/-- Where both values hold objects they are compared at every key. -/
theorem ComparedAt.concat {a b : Json} {path : List String} (h : ComparedAt a b path)
    (hobjects : BothObjects (a.valueAt path) (b.valueAt path)) (k : String) :
    ComparedAt a b (path ++ [k]) := by
  intro p hp hne
  rcases List.prefix_concat_iff.1 hp with rfl | hp
  · exact absurd rfl hne
  · by_cases hpath : p = path
    · exact hpath ▸ hobjects
    · exact h p hp hpath

theorem differAt_nil {a b : Json} : DifferAt a b [] ↔ (a == b) = false ∧ ¬ BothObjects a b := by
  constructor
  · intro h
    exact ⟨h.differ, h.lowest⟩
  · rintro ⟨hdiffer, hlowest⟩
    exact ⟨comparedAt_nil a b, hdiffer, hlowest⟩

theorem DifferAt.objects {a b : Json} {k : String} {ks : List String}
    (h : DifferAt a b (k :: ks)) : BothObjects a b :=
  h.compared [] List.nil_prefix (List.cons_ne_nil k ks).symm

theorem differAt_object_cons {fs gs : Fields Json} {k : String} {ks : List String} :
    DifferAt (object fs) (object gs) (k :: ks) ↔
      DifferAt ((fs.get? k).getD .null) ((gs.get? k).getD .null) ks := by
  constructor
  · rintro ⟨habove, hdiffer, hlowest⟩
    simp only [valueAt_object_cons] at hdiffer hlowest
    refine ⟨fun p hp hne => ?_, hdiffer, hlowest⟩
    have hobjects := habove (k :: p) (List.cons_prefix_cons.2 ⟨rfl, hp⟩) (by simpa using hne)
    simpa only [valueAt_object_cons] using hobjects
  · rintro ⟨habove, hdiffer, hlowest⟩
    refine ⟨fun p hp hne => ?_, by simpa using hdiffer, by simpa using hlowest⟩
    cases p with
    | nil => exact bothObjects_object fs gs
    | cons j js =>
      obtain ⟨rfl, hjs⟩ := List.cons_prefix_cons.1 hp
      simp only [valueAt_object_cons]
      exact habove js hjs (by simpa using hne)

/-- A place where the values differ lies past a path at which they are compared, or is apart from
it. -/
theorem DifferAt.apart {a b : Json} {place path : List String} (h : DifferAt a b place)
    (hpath : ComparedAt a b path) (hnot : ¬ path <+: place) : FieldPath.Apart ⟨place⟩ ⟨path⟩ := by
  refine ⟨fun hprefix => ?_, hnot⟩
  by_cases heq : place = path
  · exact hnot (heq ▸ List.prefix_rfl)
  · exact h.lowest (hpath place hprefix heq)

end Json

namespace DiffOperation

variable {old new : Json}

theorem ofValues_eq_add_iff : ofValues old new = add ↔ old = .null := by
  rw [← Json.isNull_iff]
  cases hold : old.isNull <;> cases hnew : new.isNull <;> simp [ofValues, hold, hnew]

theorem ofValues_eq_remove_iff : ofValues old new = remove ↔ old ≠ .null ∧ new = .null := by
  rw [ne_eq, ← Json.isNull_iff, ← Json.isNull_iff]
  cases hold : old.isNull <;> cases hnew : new.isNull <;> simp [ofValues, hold, hnew]

theorem ofValues_eq_change_iff : ofValues old new = change ↔ old ≠ .null ∧ new ≠ .null := by
  rw [ne_eq, ne_eq, ← Json.isNull_iff, ← Json.isNull_iff]
  cases hold : old.isNull <;> cases hnew : new.isNull <;> simp [ofValues, hold, hnew]

end DiffOperation

/-- An item says what either side holds at its field, where the two sides differ and are not both
objects, and its operation follows from what they hold. -/
structure DiffItem.Faithful (item : DiffItem) (a b : Json) : Prop where
  old_eq : item.old = a.valueAt item.field.keys
  new_eq : item.new = b.valueAt item.field.keys
  differ : (item.old == item.new) = false
  add_iff : item.operation = .add ↔ item.old = .null
  remove_iff : item.operation = .remove ↔ item.old ≠ .null ∧ item.new = .null
  change_iff : item.operation = .change ↔ item.old ≠ .null ∧ item.new ≠ .null
  not_objects : ¬ Json.BothObjects item.old item.new

namespace DiffScope

/-- A key of a key is compared if the first one is: both sides have that one, as both are objects
there. -/
theorem compares_cons {scope : DiffScope} {fs gs : Fields Json} {k : String} {ks : List String}
    (h : Json.DifferAt ((fs.get? k).getD .null) ((gs.get? k).getD .null) ks) :
    scope.compares ((Json.object fs).get? (k :: ks)).isSome
        ((Json.object gs).get? (k :: ks)).isSome = true ↔
      scope.compares (fs.get? k).isSome (gs.get? k).isSome = true ∧
        scope.compares (((fs.get? k).getD .null).get? ks).isSome
          (((gs.get? k).getD .null).get? ks).isSome = true := by
  simp only [Json.get?_cons, Json.fields_object]
  cases ks with
  | nil => cases fs.get? k <;> cases gs.get? k <;> simp [compares]
  | cons j js =>
    obtain ⟨child, hf⟩ := Json.exists_of_isObject_getD h.objects.1
    obtain ⟨other, hg⟩ := Json.exists_of_isObject_getD h.objects.2
    simp [compares, hf, hg]

end DiffScope

namespace Diff

variable {scope : DiffScope} {path : FieldPath} {item : DiffItem}

/-- The item of a place below a path, from what either side holds there. -/
def itemAt (path : FieldPath) (a b : Json) (rest : List String) : DiffItem :=
  ⟨.ofValues (a.valueAt rest) (b.valueAt rest), ⟨path.keys ++ rest⟩, a.valueAt rest, b.valueAt rest⟩

theorem itemAt_object_cons (fs gs : Fields Json) (k : String) (ks : List String) :
    itemAt path (.object fs) (.object gs) (k :: ks) =
      itemAt (path.child k) ((fs.get? k).getD .null) ((gs.get? k).getD .null) ks := by
  simp [itemAt, FieldPath.child]

theorem mem_whole_iff {old new : Json} :
    item ∈ whole path old new ↔ (old == new) = false ∧ item = itemAt path old new [] := by
  unfold whole
  cases old == new <;> simp [itemAt]

/-- There is an item for each place where the two values differ, if the scope lets it take part. -/
theorem mem_between_iff {a b : Json} :
    item ∈ between scope path a b ↔ ∃ rest, Json.DifferAt a b rest ∧
      scope.compares (a.get? rest).isSome (b.get? rest).isSome = true ∧
      item = itemAt path a b rest := by
  induction a, b using Json.pairInduction generalizing path with
  | whole a b hab =>
    rw [between_whole hab, mem_whole_iff]
    constructor
    · rintro ⟨hdiffer, hitem⟩
      exact ⟨[], Json.differAt_nil.2 ⟨hdiffer, hab⟩, rfl, hitem⟩
    · rintro ⟨rest, hdiffer, -, hitem⟩
      cases rest with
      | nil => exact ⟨hdiffer.differ, hitem⟩
      | cons k ks => exact absurd hdiffer.objects hab
  | fields fs gs ih =>
    rw [mem_between_object]
    constructor
    · rintro ⟨k, hk, hitem⟩
      obtain ⟨ks, hdiffer, hks, hitem⟩ := ih k |>.1 hitem
      refine ⟨k :: ks, Json.differAt_object_cons.2 hdiffer,
        (DiffScope.compares_cons hdiffer).2 ⟨hk, hks⟩, ?_⟩
      rw [itemAt_object_cons, hitem]
    · rintro ⟨rest, hdiffer, hscope, hitem⟩
      cases rest with
      | nil => exact absurd (Json.bothObjects_object fs gs) hdiffer.lowest
      | cons k ks =>
        have hinside := Json.differAt_object_cons.1 hdiffer
        obtain ⟨hk, hks⟩ := (DiffScope.compares_cons hinside).1 hscope
        rw [itemAt_object_cons] at hitem
        exact ⟨k, hk, (ih k).2 ⟨ks, hinside, hks, hitem⟩⟩

theorem faithful_itemAt {a b : Json} {rest : List String} (h : Json.DifferAt a b rest) :
    (itemAt .root a b rest).Faithful a b where
  old_eq := rfl
  new_eq := rfl
  differ := h.differ
  add_iff := DiffOperation.ofValues_eq_add_iff
  remove_iff := DiffOperation.ofValues_eq_remove_iff
  change_iff := DiffOperation.ofValues_eq_change_iff
  not_objects := h.lowest

/-- An item of a difference is that of its own field. -/
theorem mem_diff_iff {a b : Json} :
    item ∈ a.diff b scope ↔ Json.DifferAt a b item.field.keys ∧
      scope.compares (Body.contains a item.field) (Body.contains b item.field) = true ∧
      item = itemAt .root a b item.field.keys := by
  rw [Json.diff, mem_between_iff]
  constructor
  · rintro ⟨rest, hdiffer, hscope, rfl⟩
    exact ⟨hdiffer, hscope, rfl⟩
  · rintro ⟨hdiffer, hscope, hitem⟩
    exact ⟨item.field.keys, hdiffer, hscope, hitem⟩

/-- The fields of the items are apart from each other. -/
theorem pairwise_apart_between (a b : Json) :
    (between scope path a b).Pairwise fun x y => x.field.Apart y.field := by
  induction a, b using Json.pairInduction generalizing path with
  | whole a b hab =>
    rw [between_whole hab, whole]
    split
    · exact .nil
    · exact List.pairwise_singleton _ _
  | fields fs gs ih =>
    rw [between_object, List.pairwise_flatMap]
    refine ⟨fun k _ => ih k, (DiffScope.nodup_comparedKeys scope _ _).imp ?_⟩
    intro k j hkj x hx y hy
    obtain ⟨ks, -, -, rfl⟩ := mem_between_iff.1 hx
    obtain ⟨js, -, -, rfl⟩ := mem_between_iff.1 hy
    simp only [itemAt, FieldPath.child, List.append_assoc, List.singleton_append]
    exact FieldPath.apart_append.2 (FieldPath.apart_cons.2 fun h => absurd h hkj)

/-- Each item says what either side holds at its field, and what became of that. The fields are
apart from each other. -/
theorem diff_faithful (a b : Json) (scope : DiffScope) :
    (∀ item ∈ a.diff b scope, item.Faithful a b) ∧
      (a.diff b scope).Pairwise fun x y => x.field.Apart y.field := by
  refine ⟨fun item hitem => ?_, pairwise_apart_between a b⟩
  obtain ⟨rest, hdiffer, -, rfl⟩ := mem_between_iff.1 hitem
  exact faithful_itemAt hdiffer

/-- What is declared for an object, with a null, an empty key and a key that holds a dot. -/
def declared : Json :=
  .objectOfList [("", .objectOfList [("a.b", .array [.bool true])]), ("spec", .objectOfList
    [("paused", .null), ("replicas", .num (.integer 2)), ("tier", .str "web")])]

/-- What is observed of it. -/
def observed : Json :=
  .objectOfList [("", .objectOfList [("a.b", .objectOfList [("c", .null)])]),
    ("spec", .objectOfList
      [("paused", .bool true), ("replicas", .num (.integer 2)), ("zone", .str "eu")])]

/-- The list at the key with a dot became an object. -/
def listReplaced : DiffItem :=
  ⟨.change, ⟨["", "a.b"]⟩, .array [.bool true], .objectOfList [("c", .null)]⟩

theorem listReplaced_faithful :
    listReplaced ∈ declared.diff observed .left ∧ listReplaced.Faithful declared observed := by
  have hmem : listReplaced ∈ declared.diff observed .left := by decide
  exact ⟨hmem, (diff_faithful declared observed .left).1 _ hmem⟩

end Diff

end ControlLoop
