import ControlLoop.Diff
import ControlLoop.Proofs.Json.Equality

/-!
# Items of a difference

Two objects are compared key by key, and two other values as a whole. A key that
one side lacks is compared as if that side held null there, if the scope lets
the other side take part. Equal values have no items, so a comparison may stop
at them.
-/

set_option autoImplicit false

namespace ControlLoop

namespace DiffScope

/-- Whether a key takes part in a comparison, by the sides that have it. -/
def compares (scope : DiffScope) : (inLeft inRight : Bool) → Bool
  | true, true => true
  | true, false => scope.includesLeft
  | false, true => scope.includesRight
  | false, false => false

@[simp] theorem compares_left (inLeft inRight : Bool) :
    DiffScope.left.compares inLeft inRight = inLeft := by
  cases inLeft <;> cases inRight <;> rfl

@[simp] theorem compares_right (inLeft inRight : Bool) :
    DiffScope.right.compares inLeft inRight = inRight := by
  cases inLeft <;> cases inRight <;> rfl

@[simp] theorem compares_full (inLeft inRight : Bool) :
    DiffScope.full.compares inLeft inRight = (inLeft || inRight) := by
  cases inLeft <;> cases inRight <;> rfl

/-- The keys of two objects in the order in which they are compared: first those of the right side
alone, then those of the left side alone, then the common ones. -/
def comparedKeys (scope : DiffScope) (left right : KeySet) : List String :=
  (if scope.includesRight then right.toList.filter (· ∉ left) else []) ++
    (if scope.includesLeft then left.toList.filter (· ∉ right) else []) ++
    left.toList.filter (· ∈ right)

theorem mem_comparedKeys {scope : DiffScope} {left right : KeySet} {k : String} :
    k ∈ scope.comparedKeys left right ↔
      scope.compares (decide (k ∈ left)) (decide (k ∈ right)) = true := by
  by_cases hl : k ∈ left <;> by_cases hr : k ∈ right <;> simp [comparedKeys, compares, hl, hr]

/-- No key is compared twice. -/
theorem nodup_comparedKeys (scope : DiffScope) (left right : KeySet) :
    (scope.comparedKeys left right).Nodup := by
  have hleft := left.nodup_toList
  have hright := right.nodup_toList
  rw [comparedKeys, List.nodup_append, List.nodup_append]
  simp only [List.mem_append, List.mem_ite_nil_right, List.mem_filter, decide_eq_true_iff]
  refine ⟨⟨?_, ?_, ?_⟩, hleft.filter _, ?_⟩
  · split
    · exact hright.filter _
    · exact .nil
  · split
    · exact hleft.filter _
    · exact .nil
  · rintro k hr _ hl rfl
    exact hr.2.2 hl.2.1
  · rintro k (hr | hl) _ hboth rfl
    · exact hr.2.2 hboth.1
    · exact hl.2.2 hboth.2

end DiffScope

namespace Diff

variable {scope : DiffScope} {path : FieldPath} {item : DiffItem}

/-- Values that are not both objects are compared as a whole. -/
theorem between_leaf_left {old : Json} (new : Json) (h : old.isObject = false) :
    between scope path old new = whole path old new := by
  cases old with
  | obj keys value => cases h
  | _ => cases new <;> rfl

theorem between_leaf_right (old : Json) {new : Json} (h : new.isObject = false) :
    between scope path old new = whole path old new := by
  cases new with
  | obj keys value => cases h
  | _ => cases old <;> rfl

theorem between_whole {old new : Json} (h : ¬ Json.BothObjects old new) :
    between scope path old new = whole path old new := by
  cases hold : old.isObject with
  | false => exact between_leaf_left new hold
  | true => exact between_leaf_right old (Bool.eq_false_iff.2 fun hnew => h ⟨hold, hnew⟩)

theorem whole_eq_nil_iff {old new : Json} : whole path old new = [] ↔ (old == new) = true := by
  unfold whole
  split <;> simp_all

/-- A value against nothing is a removal. -/
theorem whole_null {value : Json} (h : value.isNull = false) :
    whole path value .null = [⟨.remove, path, value, .null⟩] := by
  rw [whole, Json.beq_null, if_neg (by simp [h]), DiffOperation.ofValues, if_neg (by simp [h])]
  rfl

/-- The items of two objects at one key. What a side lacks is null. -/
def atKey (scope : DiffScope) (path : FieldPath) (a b : Fields Json) (k : String) : Diff :=
  between scope (path.child k) ((a.get? k).getD .null) ((b.get? k).getD .null)

/-- What is only on the right. -/
theorem rightOnly_eq (a b : Fields Json) :
    (b.keys.members.flatMap fun k =>
      if k.1 ∈ a.keys then [] else whole (path.child k.1) .null (b.value k)) =
    (b.keys.toList.filter (· ∉ a.keys)).flatMap (atKey scope path a b) := by
  refine KeySet.flatMap_members (· ∉ a.keys) (fun k hk => ?_)
    fun k hk => if_pos (Classical.not_not.1 hk)
  rw [if_neg hk, atKey, Fields.get?_eq_none_iff.2 hk, Fields.get?_of_mem k.2]
  exact (between_leaf_left _ rfl).symm

/-- What is only on the left. -/
theorem leftOnly_eq (a b : Fields Json) :
    (a.keys.members.flatMap fun k =>
      if k.1 ∈ b.keys then [] else whole (path.child k.1) (a.value k) .null) =
    (a.keys.toList.filter (· ∉ b.keys)).flatMap (atKey scope path a b) := by
  refine KeySet.flatMap_members (· ∉ b.keys) (fun k hk => ?_)
    fun k hk => if_pos (Classical.not_not.1 hk)
  rw [if_neg hk, atKey, Fields.get?_eq_none_iff.2 hk, Fields.get?_of_mem k.2]
  exact (between_leaf_right _ rfl).symm

/-- What is on both sides. -/
theorem common_eq (a b : Fields Json) :
    (a.keys.members.flatMap fun k =>
      if h : k.1 ∈ b.keys then between scope (path.child k.1) (a.value k) (b.value ⟨k.1, h⟩)
      else []) =
    (a.keys.toList.filter (· ∈ b.keys)).flatMap (atKey scope path a b) := by
  refine KeySet.flatMap_members (· ∈ b.keys) (fun k hk => ?_) fun k hk => dif_neg hk
  rw [dif_pos hk, atKey, Fields.get?_of_mem k.2, Fields.get?_of_mem hk]
  rfl

/-- What two objects show is what their keys show, one key after the other. -/
theorem between_object (a b : Fields Json) :
    between scope path (.object a) (.object b) =
      (scope.comparedKeys a.keys b.keys).flatMap (atKey scope path a b) := by
  show between scope path (.obj a.keys a.value) (.obj b.keys b.value) = _
  rw [between, rightOnly_eq, leftOnly_eq, common_eq, DiffScope.comparedKeys, List.flatMap_append,
    List.flatMap_append]
  cases scope.includesRight <;> cases scope.includesLeft <;> rfl

/-- The items of two objects are those of their keys. -/
theorem mem_between_object {a b : Fields Json} :
    item ∈ between scope path (.object a) (.object b) ↔
      ∃ k, scope.compares (a.get? k).isSome (b.get? k).isSome = true ∧
        item ∈ between scope (path.child k) ((a.get? k).getD .null) ((b.get? k).getD .null) := by
  simp only [between_object, List.mem_flatMap, DiffScope.mem_comparedKeys, Fields.isSome_get?_eq]
  rfl

/-- Equal values have no items, in whatever scope. -/
theorem between_eq_nil_of_beq {a b : Json} (h : (a == b) = true) : between scope path a b = [] := by
  induction a, b using Json.pairInduction generalizing path with
  | whole a b hab => rw [between_whole hab, whole_eq_nil_iff.2 h]
  | fields fs gs ih =>
    rw [between_object, List.flatMap_eq_nil_iff]
    intro k _
    apply ih k
    have hfield := Json.object_beq_object_iff.1 h k
    cases hf : fs.get? k <;> cases hg : gs.get? k <;> simp_all

/-- In the left scope the keys of the left side count. -/
theorem mem_between_left_object {a b : Fields Json} :
    item ∈ between .left path (.object a) (.object b) ↔
      ∃ k child, a.get? k = some child ∧
        item ∈ between .left (path.child k) child ((b.get? k).getD .null) := by
  simp only [mem_between_object, DiffScope.compares_left, Option.isSome_iff_exists]
  constructor
  · rintro ⟨k, ⟨child, hchild⟩, hitem⟩
    rw [hchild] at hitem
    exact ⟨k, child, hchild, hitem⟩
  · rintro ⟨k, child, hchild, hitem⟩
    refine ⟨k, ⟨child, hchild⟩, ?_⟩
    rw [hchild]
    exact hitem

end Diff

end ControlLoop
