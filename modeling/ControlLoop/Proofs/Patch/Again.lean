import ControlLoop.Proofs.Patch.Along
import ControlLoop.Proofs.Patch.Independent

/-!
# Sending a patch again

A patch whose answer was lost may be sent once more. What it removed is already
gone, what it put in place is already there, and an object that it was merged
into holds what it asks for. Neither time does it touch what it does not
mention. It may even be sent again after other patches, as long as none of them
is in conflict with it.
-/

set_option autoImplicit false

namespace ControlLoop

namespace Json

/-- A field may be changed again if what it is changed by may be merged again. -/
theorem mergeField_again {change : Option Json}
    (h : ∀ x, change = some x → ∀ target : Json, (target.merge x).merge x = target.merge x)
    (held : Option Json) : mergeField (mergeField held change) change = mergeField held change := by
  cases change with
  | none => rfl
  | some x =>
    cases hnull : x.isNull with
    | true =>
      have hx : x = .null := isNull_iff.1 hnull
      rw [hx, mergeField_null, mergeField_null]
    | false =>
      have hagain := h x rfl (held.getD .null)
      rw [mergeField_some held hnull, mergeField_some _ hnull, Option.getD_some, hagain]

theorem merge_again (target patch : Json) :
    (target.merge patch).merge patch = target.merge patch := by
  induction patch using fieldsInduction generalizing target with
  | leaf patch hleaf => rw [merge_leaf _ hleaf, merge_leaf _ hleaf]
  | object changes ih =>
    apply merge_object_eq_iff.2
    intro k
    rw [get?_merge_object]
    apply mergeField_again
    intro x hx target
    exact ih k x hx target

/-- A merge leaves what the patch does not mention. -/
theorem get?_merge_of_gap (target : Json) {patch : Json} {path : List String}
    (h : patch.Meets path .gap) : (target.merge patch).get? path = target.get? path := by
  cases patch using fieldsInduction with
  | object changes => exact h.leaves target
  | leaf patch hleaf =>
    -- A gap is in an object, and there is none in a leaf.
    cases h with
    | @gap met k fields on_path held lacking =>
      cases met with
      | nil =>
        have hobject : patch = .object fields := Option.some.inj held
        rw [hobject] at hleaf
        cases hleaf
      | cons j js =>
        rw [get?_leaf hleaf] at held
        cases held

section InBetween

/-- A patch may be merged before or after others with which it has no conflict. -/
theorem foldl_merge_comm {patch : Json} {others : List Json}
    (hfree : ∀ other ∈ others, other.conflictFree patch = true) (target : Json) :
    (others.foldl merge target).merge patch = others.foldl merge (target.merge patch) := by
  induction others generalizing target with
  | nil => rfl
  | cons other others ih =>
    have hfirst : other.conflictFree patch = true := hfree other List.mem_cons_self
    have hrest : ∀ later ∈ others, later.conflictFree patch = true :=
      fun later hlater => hfree later (List.mem_cons_of_mem _ hlater)
    rw [List.foldl_cons, List.foldl_cons, ih hrest, merge_comm hfirst]

/-- A patch may be sent again after others with which it has no conflict. -/
theorem foldl_merge_again {patch : Json} {others : List Json}
    (hfree : ∀ other ∈ others, other.conflictFree patch = true) (target : Json) :
    (others.foldl merge (target.merge patch)).merge patch =
      others.foldl merge (target.merge patch) := by
  rw [foldl_merge_comm hfree, merge_again]

end InBetween

/-- To merge a patch a second time changes nothing. What the patch does not mention is after both
merges what it was before them, and if it was null it still is. -/
theorem merge_twice (target patch : Json) :
    (target.merge patch).merge patch = target.merge patch ∧
      ∀ path, patch.Meets path .gap →
        ((target.merge patch).merge patch).get? path = target.get? path := by
  have hagain := merge_again target patch
  constructor
  · exact hagain
  · intro path hgap
    rw [hagain]
    exact get?_merge_of_gap target hgap

/-- The value after the patch, however often it is merged. -/
def redeployed : Json :=
  .objectOfList [("metadata", .objectOfList []),
    ("spec", .objectOfList [("hosts", .array [.null]), ("tier", .null)]),
    ("status", .objectOfList [])]

/-- The patch finds a text, a null and an object the first time, and objects and an array the second
time. The null that it does not mention is there after both. -/
theorem redeployment_twice :
    redeployment.toJson.Meets ["spec", "tier"] .gap ∧
      deployed.merge redeployment.toJson = redeployed ∧
      (deployed.merge redeployment.toJson).merge redeployment.toJson = redeployed ∧
      ((deployed.merge redeployment.toJson).merge redeployment.toJson).get? ["spec", "tier"] =
        some .null := by
  have hgap : redeployment.toJson.Meets ["spec", "tier"] .gap :=
    .gap (List.prefix_refl (["spec"] ++ ["tier"])) rfl rfl
  have honce : deployed.merge redeployment.toJson = redeployed := by decide +kernel
  obtain ⟨hsame, hkept⟩ := merge_twice deployed redeployment.toJson
  exact ⟨hgap, honce, hsame.trans honce, hkept _ hgap⟩

end Json

end ControlLoop
