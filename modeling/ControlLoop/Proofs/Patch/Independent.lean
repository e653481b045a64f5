import Mathlib.Data.List.Pairwise
import ControlLoop.Proofs.Patch.Merge

/-!
# Independent patches

Two patches are free of conflicts if they ask for different fields, or for
different fields inside the objects that they share. Such patches may be merged
in either order: each field of the target is changed by one of them at most,
however the other makes room for it.
-/

set_option autoImplicit false

namespace ControlLoop

namespace Json

/-- Whether two values are objects that are free of conflicts at every key that they share. -/
def conflictFree : Json → Json → Bool
  | .obj ks f, .obj js g =>
    ks.members.all fun k => if h : k.1 ∈ js then (f k).conflictFree (g ⟨k.1, h⟩) else true
  | _, _ => false

theorem conflictFree_object_iff {a b : Fields Json} :
    (object a).conflictFree (object b) = true ↔
      ∀ k x y, a.get? k = some x → b.get? k = some y → x.conflictFree y = true := by
  obtain ⟨ks, f⟩ := a
  obtain ⟨js, g⟩ := b
  show conflictFree (.obj ks f) (.obj js g) = true ↔ _
  simp only [conflictFree, List.all_eq_true, KeySet.mem_members, true_implies]
  constructor
  · intro h k x y hx hy
    have hks : k ∈ ks := Fields.isSome_get?.1 (Option.isSome_of_eq_some hx)
    have hjs : k ∈ js := Fields.isSome_get?.1 (Option.isSome_of_eq_some hy)
    rw [@Fields.get?_of_mem _ ⟨ks, f⟩ _ hks] at hx
    rw [@Fields.get?_of_mem _ ⟨js, g⟩ _ hjs] at hy
    rw [← Option.some.inj hx, ← Option.some.inj hy]
    simpa only [hjs, ↓reduceDIte] using h ⟨k, hks⟩
  · intro h k
    split
    · next hjs =>
      exact h k.1 _ _ (@Fields.get?_of_mem _ ⟨ks, f⟩ _ k.2) (@Fields.get?_of_mem _ ⟨js, g⟩ _ hjs)
    · rfl

theorem bothObjects_of_conflictFree {a b : Json} (h : a.conflictFree b = true) :
    BothObjects a b := by
  cases a with
  | obj ks f =>
    cases b with
    | obj js g => exact ⟨rfl, rfl⟩
    | _ => cases h
  | _ => cases h

/-- Two changes of one field may be made in either order if they are merged as objects in either
order. -/
theorem mergeField_comm {change other : Option Json}
    (h : ∀ x y, change = some x → other = some y → BothObjects x y ∧
      ∀ target : Json, (target.merge x).merge y = (target.merge y).merge x)
    (held : Option Json) :
    mergeField (mergeField held change) other = mergeField (mergeField held other) change := by
  cases change with
  | none => rfl
  | some x =>
    cases other with
    | none => rfl
    | some y =>
      obtain ⟨⟨hx, hy⟩, hcomm⟩ := h x y rfl rfl
      have hxnull := isNull_of_isObject hx
      have hynull := isNull_of_isObject hy
      rw [mergeField_some held hxnull, mergeField_some held hynull, mergeField_some _ hynull,
        mergeField_some _ hxnull, Option.getD_some, Option.getD_some, hcomm]

theorem merge_comm {target p q : Json} (h : p.conflictFree q = true) :
    (target.merge p).merge q = (target.merge q).merge p := by
  induction p using fieldsInduction generalizing target q with
  | leaf p hp => exact absurd (bothObjects_of_conflictFree h).1 (Bool.eq_false_iff.1 hp)
  | object changes ih =>
    obtain ⟨others, rfl⟩ : ∃ others, q = object others :=
      ⟨_, eq_object_of_isObject (bothObjects_of_conflictFree h).2⟩
    refine merge_object_eq_iff.2 fun k => ?_
    rw [get?_merge_object, get?_merge_object]
    refine mergeField_comm (fun x y hx hy => ?_) _
    have hinside := conflictFree_object_iff.1 h k x y hx hy
    exact ⟨bothObjects_of_conflictFree hinside, fun target => ih k x hx hinside⟩

theorem conflictFree_symm {a b : Json} (h : a.conflictFree b = true) :
    b.conflictFree a = true := by
  induction a using fieldsInduction generalizing b with
  | leaf a ha => exact absurd (bothObjects_of_conflictFree h).1 (Bool.eq_false_iff.1 ha)
  | object fs ih =>
    obtain ⟨gs, rfl⟩ : ∃ gs, b = object gs :=
      ⟨_, eq_object_of_isObject (bothObjects_of_conflictFree h).2⟩
    refine conflictFree_object_iff.2 fun k y x hy hx => ?_
    exact ih k x hx (conflictFree_object_iff.1 h k x y hx hy)

instance : Std.Symm fun p q : Json => p.conflictFree q = true := ⟨fun _ _ => conflictFree_symm⟩

/-- Any number of patches of which no two conflict may be merged in any order. -/
theorem foldl_merge_perm {patches others : List Json} (hperm : patches.Perm others)
    (hfree : patches.Pairwise fun p q => p.conflictFree q = true) (target : Json) :
    patches.foldl merge target = others.foldl merge target := by
  refine hperm.foldl_eq' (fun p hp q hq value => ?_) target
  by_cases hpq : p = q
  · rw [hpq]
  · exact merge_comm (hfree.forall hp hq hpq)

/-- Patches that are free of conflicts may be merged into any target in either order. -/
theorem merge_comm_of_conflictFree (target : Json) {p q : Patch}
    (h : p.toJson.conflictFree q.toJson = true) :
    (target.merge p.toJson).merge q.toJson = (target.merge q.toJson).merge p.toJson :=
  merge_comm h

/-- A value with a number where the patches below have objects. -/
def unplanned : Json := .objectOfList [("spec", .num (.integer 1)), ("status", .str "Ready")]

/-- A patch that makes room under `spec` and removes the status. -/
def scaling : Patch :=
  ⟨.ofList [("spec", .objectOfList [("limits", .objectOfList [("cpu", .num (.integer 2))]),
    ("replicas", .num (.integer 3))]), ("status", .null)]⟩

/-- A patch with other wishes under `spec`. -/
def labelling : Patch :=
  ⟨.ofList [("metadata", .objectOfList [("labels", .null)]),
    ("spec", .objectOfList [("limits", .objectOfList [("memory", .null)]), ("tier", .str "web")])]⟩

/-- The value after both patches. -/
def planned : Json :=
  .objectOfList [("metadata", .objectOfList []),
    ("spec", .objectOfList [("limits", .objectOfList [("cpu", .num (.integer 2))]),
      ("replicas", .num (.integer 3)), ("tier", .str "web")])]

/-- Whichever of the two replaces the number, the result is the same. -/
theorem scaling_labelling_comm :
    scaling.toJson.conflictFree labelling.toJson = true ∧
      (unplanned.merge scaling.toJson).merge labelling.toJson =
        (unplanned.merge labelling.toJson).merge scaling.toJson ∧
      (unplanned.merge scaling.toJson).merge labelling.toJson = planned ∧
      (unplanned.merge labelling.toJson).merge scaling.toJson = planned := by
  have hfree : scaling.toJson.conflictFree labelling.toJson = true := by decide
  have hcomm := merge_comm_of_conflictFree unplanned hfree
  have hplanned : (unplanned.merge scaling.toJson).merge labelling.toJson = planned := by
    decide +kernel
  exact ⟨hfree, hcomm, hplanned, hcomm.symm.trans hplanned⟩

end Json

end ControlLoop
