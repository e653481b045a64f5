import Mathlib.Data.List.Basic
import ControlLoop.Proofs.Diff.Places

/-!
# The scopes of a difference

The left scope reports what the left side has, be it as null, the right scope
what the right side has, and the full scope both. Seen from the other side each
item is its own mirror image, and the items stand in the same order.
-/

set_option autoImplicit false

namespace ControlLoop

/-- What became of a field, seen from the other side. -/
def DiffOperation.opposite : DiffOperation → DiffOperation
  | add => remove
  | change => change
  | remove => add

/-- The item seen from the other side. -/
def DiffItem.mirrored (item : DiffItem) : DiffItem :=
  ⟨item.operation.opposite, item.field, item.new, item.old⟩

theorem DiffOperation.opposite_ofValues {old new : Json} (h : ¬ (old.isNull ∧ new.isNull)) :
    (ofValues old new).opposite = ofValues new old := by
  cases hold : old.isNull <;> cases hnew : new.isNull <;> simp_all [ofValues, opposite]

namespace DiffScope

/-- The right scope compares the same keys in the same order once the sides are exchanged. -/
theorem comparedKeys_right (a b : KeySet) :
    DiffScope.right.comparedKeys b a = DiffScope.left.comparedKeys a b := by
  simp [comparedKeys, includesLeft, includesRight, KeySet.filter_mem_comm b a]

end DiffScope

namespace Diff

variable {path : FieldPath}

theorem whole_mirrored (old new : Json) :
    whole path new old = (whole path old new).map DiffItem.mirrored := by
  rw [whole, whole, Json.beq_comm new old]
  cases heq : old == new with
  | true => rfl
  | false =>
    have hnull : ¬ (old.isNull ∧ new.isNull) := by
      rintro ⟨hold, hnew⟩
      rw [Json.isNull_iff.1 hold, Json.isNull_iff.1 hnew] at heq
      cases heq
    simp [DiffItem.mirrored, DiffOperation.opposite_ofValues hnull]

theorem between_mirrored (a b : Json) :
    between .right path b a = (between .left path a b).map DiffItem.mirrored := by
  induction a, b using Json.pairInduction generalizing path with
  | whole a b hab =>
    rw [between_whole hab, between_whole fun h => hab h.symm, whole_mirrored]
  | fields fs gs ih =>
    rw [between_object, between_object, DiffScope.comparedKeys_right, List.map_flatMap]
    exact List.flatMap_congr fun k _ => ih k

/-- An item of the full scope is one of the left scope if its field exists on the left, be it as
null, and one of the right scope if it exists on the right. There are no others. The right scope
seen from the other side is the left scope. -/
theorem diff_scopes_cohere (a b : Json) :
    (∀ item, item ∈ a.diff b .full ↔ item ∈ a.diff b .left ∨ item ∈ a.diff b .right) ∧
    (∀ item ∈ a.diff b .full,
      (item ∈ a.diff b .left ↔ Body.contains a item.field = true) ∧
      (item ∈ a.diff b .right ↔ Body.contains b item.field = true)) ∧
    b.diff a .right = (a.diff b .left).map DiffItem.mirrored := by
  refine ⟨fun item => ?_, fun item hitem => ?_, between_mirrored a b⟩
  · simp only [mem_diff_iff, DiffScope.compares_full, DiffScope.compares_left,
      DiffScope.compares_right, Bool.or_eq_true]
    constructor
    · rintro ⟨hdiffer, hleft | hright, hitem⟩
      · exact Or.inl ⟨hdiffer, hleft, hitem⟩
      · exact Or.inr ⟨hdiffer, hright, hitem⟩
    · rintro (⟨hdiffer, hleft, hitem⟩ | ⟨hdiffer, hright, hitem⟩)
      · exact ⟨hdiffer, Or.inl hleft, hitem⟩
      · exact ⟨hdiffer, Or.inr hright, hitem⟩
  · obtain ⟨hdiffer, -, hfield⟩ := mem_diff_iff.1 hitem
    constructor
    · rw [mem_diff_iff, DiffScope.compares_left]
      exact ⟨fun h => h.2.1, fun h => ⟨hdiffer, h, hfield⟩⟩
    · rw [mem_diff_iff, DiffScope.compares_right]
      exact ⟨fun h => h.2.1, fun h => ⟨hdiffer, h, hfield⟩⟩

/-- A null gave way to a value. -/
def pausedSet : DiffItem := ⟨.add, ⟨["spec", "paused"]⟩, .null, .bool true⟩

/-- A field that was not declared. -/
def zoneAdded : DiffItem := ⟨.add, ⟨["spec", "zone"]⟩, .null, .str "eu"⟩

/-- Of two additions only that of a declared field is seen from the left. -/
theorem pausedSet_in_left_zoneAdded_not :
    pausedSet ∈ declared.diff observed .left ∧ zoneAdded ∉ declared.diff observed .left ∧
      zoneAdded ∈ declared.diff observed .right := by
  obtain ⟨-, hsides, -⟩ := diff_scopes_cohere declared observed
  have hpaused := hsides pausedSet (by decide)
  have hzone := hsides zoneAdded (by decide)
  refine ⟨hpaused.1.2 (by decide), fun hleft => ?_, hzone.2.2 (by decide)⟩
  have hdeclared := hzone.1.1 hleft
  revert hdeclared
  decide

end Diff

end ControlLoop
