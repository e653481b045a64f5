import ControlLoop.Proofs.Patch.Merge
import ControlLoop.Store

/-!
# What a write leaves of a patch

After a write each part of the patch has come to rest: a null removed its field,
an object was merged into one, and anything else is there as it was. Where a
collapsing field lies, an object or an empty array of the patch may also have
left nothing. Merging brings this about, and the collapsing of a field keeps it
whichever fields were collapsed before.
-/

set_option autoImplicit false

namespace ControlLoop

namespace Json

/-- Part of a patch, for the field at a path, against what the field holds after the write. -/
inductive Settled (collapsing : List FieldPath) :
    (path : List String) → (patch : Json) → (held : Option Json) → Prop where
  | removed (path : List String) : Settled collapsing path .null none
  | placed (path : List String) {value : Json} (leaf : value.isObject = false)
      (present : value.isNull = false) : Settled collapsing path value (some value)
  | merged (path : List String) {changes fields : Fields Json}
      (inside : ∀ k change, changes.get? k = some change →
        Settled collapsing (path ++ [k]) change (fields.get? k)) :
      Settled collapsing path (.object changes) (some (.object fields))
  | collapsed {path : List String} {patch : Json} (mem : ⟨path⟩ ∈ collapsing)
      (container : patch.isObject = true ∨ patch.isEmptyContainer = true) :
      Settled collapsing path patch none

variable {collapsing : List FieldPath}

/-- Merging settles a change, whatever the field held before. -/
theorem settled_mergeField (path : List String) (held : Option Json) (change : Json) :
    Settled collapsing path change (mergeField held (some change)) := by
  induction change using fieldsInduction generalizing path held with
  | leaf change hleaf =>
    by_cases hnull : change.isNull = true
    · rw [isNull_iff.1 hnull]
      exact .removed path
    · rw [mergeField_some held (Bool.eq_false_iff.2 hnull), merge_leaf _ hleaf]
      exact .placed path hleaf (Bool.eq_false_iff.2 hnull)
  | object changes ih =>
    rw [mergeField_some held (isNull_object changes), merge_object]
    refine .merged path fun k change hk => ?_
    rw [get?_merge_object, hk]
    exact ih k change hk (path ++ [k]) _

/-- Nothing is collapsed inside what is no object. -/
theorem collapseEmpty_leaf {value : Json} (h : value.isObject = false) (keys : List String) :
    value.collapseEmpty keys = value := by
  cases keys with
  | nil => rfl
  | cons k ks => rw [collapseEmpty, get?_fields_leaf h]

/-- What one field holds after the collapsing of a place in it. -/
def collapseField (held : Option Json) : List String → Option Json
  | [] => held.filter fun child => !child.isEmptyContainer
  | k :: ks => held.map fun child => child.collapseEmpty (k :: ks)

/-- Collapsing a place acts on one field of an object. -/
theorem collapseEmpty_object (fields : Fields Json) (k : String) (ks : List String) :
    ∃ after : Fields Json, (object fields).collapseEmpty (k :: ks) = object after ∧
      ∀ j, after.get? j = if j = k then collapseField (fields.get? k) ks else fields.get? j := by
  rw [collapseEmpty, fields_object]
  cases hk : fields.get? k with
  | none =>
    refine ⟨fields, rfl, fun j => ?_⟩
    split
    · next hj => rw [hj, hk]; cases ks <;> rfl
    · rfl
  | some child =>
    cases ks with
    | nil =>
      by_cases hchild : child.isEmptyContainer = true
      · refine ⟨fields.erase k, by simp [hchild], fun j => ?_⟩
        simp [Fields.get?_erase, collapseField, Option.filter_some, hchild]
      · refine ⟨fields, by simp [hchild], fun j => ?_⟩
        split
        · next hj => simp [hj, hk, collapseField, Option.filter_some, hchild]
        · rfl
    | cons k' ks' => exact ⟨fields.insert k _, rfl, fun j => Fields.get?_insert⟩

/-- A part that left an empty container at a collapsing field may leave nothing. -/
theorem Settled.drop {path : List String} {patch child : Json}
    (h : Settled collapsing path patch (some child)) (mem : ⟨path⟩ ∈ collapsing)
    (hempty : child.isEmptyContainer = true) : Settled collapsing path patch none := by
  cases h with
  | placed _ leaf present => exact .collapsed mem (Or.inr hempty)
  | merged _ inside => exact .collapsed mem (Or.inl rfl)

/-- Collapsing one of the fields keeps all parts of a patch settled. -/
theorem Settled.collapseEmpty {path : List String} {patch value : Json} {keys : List String}
    (h : Settled collapsing path patch (some value)) (mem : ⟨path ++ keys⟩ ∈ collapsing) :
    Settled collapsing path patch (some (value.collapseEmpty keys)) := by
  generalize hheld : some value = held at h
  induction h generalizing value keys with
  | removed => cases hheld
  | collapsed => cases hheld
  | placed path leaf present =>
    cases hheld
    rw [collapseEmpty_leaf leaf]
    exact .placed path leaf present
  | @merged path changes fields inside ih =>
    cases hheld
    cases keys with
    | nil => exact .merged path inside
    | cons k ks =>
      obtain ⟨after, hafter, hfields⟩ := collapseEmpty_object fields k ks
      rw [hafter]
      refine .merged path fun j change hj => ?_
      rw [hfields]
      have hinside := inside j change hj
      split
      · next hjk =>
        subst hjk
        have hmem : ⟨path ++ [j] ++ ks⟩ ∈ collapsing := by rwa [List.append_assoc]
        cases hchild : fields.get? j with
        | none =>
          rw [hchild] at hinside
          cases ks <;> exact hinside
        | some child =>
          cases ks with
          | nil =>
            rw [List.append_nil] at hmem
            rw [hchild] at hinside
            rw [collapseField, Option.filter_some]
            split
            · exact hinside
            · next hempty => exact hinside.drop hmem (by simpa using hempty)
          | cons k' ks' => exact ih j change hj hmem hchild.symm
      · exact hinside

/-- A write leaves the whole patch settled. -/
theorem settled_collapse (patch : Patch) (body : Body) :
    Settled collapsing [] patch.toJson
      (some (Store.collapse collapsing (body.merge patch.toJson))) := by
  refine List.foldlRecOn (motive := fun value => Settled collapsing [] patch.toJson (some value))
    collapsing _ ?_ fun value hvalue field hfield => hvalue.collapseEmpty hfield
  exact settled_mergeField [] (some body) patch.toJson

end Json

end ControlLoop
