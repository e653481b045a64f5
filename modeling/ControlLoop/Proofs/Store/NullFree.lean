import ControlLoop.Proofs.Patch.Along
import ControlLoop.Proofs.Store.Replay
import ControlLoop.Proofs.Store.Settled

/-!
# Stored bodies hold no nulls

A null in a patch asks for a removal and is itself never stored, wherever in the
patch it is: under an object that the body has, under one that takes the place
of something else, or under one that the body lacks. Neither do the collapsing
fields leave a null behind. An object that is stored without nulls stays one,
whatever is done to the store.
-/

set_option autoImplicit false

namespace ControlLoop

namespace Json

/-- Whether no field holds null, inside objects however deep. What is in an array does not count. -/
def nullFree : Json → Bool
  | .obj keys value => keys.members.all fun k => !(value k).isNull && (value k).nullFree
  | _ => true

theorem nullFree_leaf {value : Json} (h : value.isObject = false) : value.nullFree = true := by
  cases value with
  | obj keys child => cases h
  | _ => rfl

theorem nullFree_object_iff {fs : Fields Json} : (object fs).nullFree = true ↔
    ∀ k child, fs.get? k = some child → child.isNull = false ∧ child.nullFree = true := by
  obtain ⟨keys, value⟩ := fs
  show nullFree (.obj keys value) = true ↔ _
  simp only [nullFree, List.all_eq_true, KeySet.mem_members, true_implies, Bool.and_eq_true,
    Bool.not_eq_true']
  constructor
  · intro h k child hchild
    have hk : k ∈ keys := Fields.isSome_get?.1 (Option.isSome_of_eq_some hchild)
    rw [@Fields.get?_of_mem _ ⟨keys, value⟩ _ hk] at hchild
    rw [← Option.some.inj hchild]
    exact h ⟨k, hk⟩
  · intro h k
    exact h k.1 _ (@Fields.get?_of_mem _ ⟨keys, value⟩ _ k.2)

/-- There is no null at the end of any path. -/
theorem nullFree_iff {value : Json} :
    value.nullFree = true ↔ ∀ k ks, value.get? (k :: ks) ≠ some .null := by
  induction value using fieldsInduction with
  | leaf value hleaf =>
    constructor
    · intro _ k ks hnull
      rw [get?_leaf hleaf] at hnull
      cases hnull
    · intro _
      exact nullFree_leaf hleaf
  | object fs ih =>
    rw [nullFree_object_iff]
    constructor
    · intro h k ks hnull
      rw [get?_cons, fields_object] at hnull
      obtain ⟨child, hk, hchild⟩ := Option.bind_eq_some_iff.1 hnull
      obtain ⟨hpresent, hfree⟩ := h k child hk
      cases ks with
      | nil =>
        have hchild : child = .null := Option.some.inj hchild
        rw [hchild] at hpresent
        cases hpresent
      | cons k' ks' => exact (ih k child hk).1 hfree k' ks' hchild
    · intro h k child hk
      have hinside : ∀ path, (object fs).get? (k :: path) = child.get? path := by
        intro path
        rw [get?_cons, fields_object, hk, Option.bind_some]
      constructor
      · rw [Bool.eq_false_iff, ne_eq, isNull_iff]
        intro hnull
        apply h k []
        rw [hinside, get?_nil, hnull]
      · apply (ih k child hk).2
        intro k' ks'
        rw [← hinside]
        exact h k (k' :: ks')

/-- A merge brings no null into a value, whatever nulls are in the patch. -/
theorem nullFree_merge {target : Json} (h : target.nullFree = true) (patch : Json) :
    (target.merge patch).nullFree = true := by
  cases patch using fieldsInduction with
  | leaf patch hleaf =>
    rw [merge_leaf _ hleaf]
    exact nullFree_leaf hleaf
  | object changes =>
    rw [nullFree_iff] at h ⊢
    intro k ks hnull
    obtain ⟨encounter, hmeets⟩ := exists_meets (object changes) (k :: ks)
    have hleaves := hmeets.leaves target
    rw [hnull] at hleaves
    -- What the path meets would have to leave a null, and only a null of the target could.
    cases hmeets with
    | null => cases hleaves
    | gap => exact h k ks hleaves.symm
    | object =>
      obtain ⟨fields, hobject⟩ := hleaves
      cases hobject
    | @leaf met rest value on_path held leaf present =>
      cases rest with
      | nil =>
        have hvalue : Json.null = value := Option.some.inj hleaves
        rw [← hvalue] at present
        cases present
      | cons j js =>
        have hinside : some Json.null = value.get? (j :: js) := hleaves
        rw [get?_leaf leaf] at hinside
        cases hinside

theorem isObject_collapseEmpty (value : Json) (keys : List String) :
    (value.collapseEmpty keys).isObject = value.isObject := by
  cases value using fieldsInduction with
  | leaf value hleaf => rw [collapseEmpty_leaf hleaf]
  | object fs =>
    cases keys with
    | nil => rfl
    | cons k ks =>
      obtain ⟨after, hafter, -⟩ := collapseEmpty_object fs k ks
      rw [hafter]
      rfl

theorem isNull_collapseEmpty (value : Json) (keys : List String) :
    (value.collapseEmpty keys).isNull = value.isNull := by
  cases value using fieldsInduction with
  | leaf value hleaf => rw [collapseEmpty_leaf hleaf]
  | object fs =>
    have hobject := isObject_collapseEmpty (object fs) keys
    rw [isNull_of_isObject hobject, isNull_object]

/-- To collapse a place leaves no null. -/
theorem nullFree_collapseEmpty {value : Json} (h : value.nullFree = true) (keys : List String) :
    (value.collapseEmpty keys).nullFree = true := by
  induction keys generalizing value with
  | nil => exact h
  | cons k ks ih =>
    cases value using fieldsInduction with
    | leaf value hleaf =>
      rw [collapseEmpty_leaf hleaf]
      exact h
    | object fs =>
      obtain ⟨after, hafter, hfields⟩ := collapseEmpty_object fs k ks
      rw [nullFree_object_iff] at h
      rw [hafter, nullFree_object_iff]
      intro j child hj
      rw [hfields] at hj
      split at hj
      · -- The field that is collapsed holds what it held, or that with a place in it collapsed.
        cases ks with
        | nil => exact h k child (Option.filter_eq_some_iff.1 hj).1
        | cons k' ks' =>
          obtain ⟨held, hheld, hcollapsed⟩ := Option.map_eq_some_iff.1 hj
          obtain ⟨hpresent, hfree⟩ := h k held hheld
          rw [← hcollapsed]
          constructor
          · rw [isNull_collapseEmpty, hpresent]
          · exact ih hfree
      · exact h j child hj

end Json

namespace Body

/-- The body is an object, and no field in it holds null. -/
structure Clean (body : Body) : Prop where
  object : body.isObject = true
  nullFree : body.nullFree = true

variable {body : Body}

theorem Clean.merge (h : Clean body) (patch : Patch) : Clean (body.merge patch.toJson) := by
  constructor
  · rfl
  · exact Json.nullFree_merge h.nullFree patch.toJson

theorem Clean.collapseEmpty (h : Clean body) (keys : List String) :
    Clean (body.collapseEmpty keys) := by
  constructor
  · rw [Json.isObject_collapseEmpty, h.object]
  · exact Json.nullFree_collapseEmpty h.nullFree keys

theorem Clean.collapse (h : Clean body) (fields : List FieldPath) :
    Clean (Store.collapse fields body) := by
  refine List.foldlRecOn (motive := Clean) fields _ h ?_
  intro value hvalue field _
  exact hvalue.collapseEmpty field.keys

end Body

namespace Store

/-- The object, if there is one, is clean. -/
def HoldsClean (store : Store) : Prop := ∀ held, store.object = some held → Body.Clean held

variable {store : Store}

theorem holdsClean_ofBody {body : Body} (h : Body.Clean body) (collapsing : List FieldPath) :
    (ofBody body collapsing).HoldsClean := by
  intro held hheld
  rw [← Option.some.inj hheld]
  exact h

/-- What an operation leaves in the store and what it answers with are clean. -/
structure Record.Clean (record : Record) : Prop where
  after : record.after.HoldsClean
  answer : ∀ result, record.answer = some (.ok (some result)) → Body.Clean result

/-- No operation stores a null, or answers with one. -/
theorem HoldsClean.record (h : store.HoldsClean) (operation : Operation) :
    (operation.record store).Clean := by
  have hgoes := store.goes operation
  unfold Operation.record
  generalize operation.apply store = ended at hgoes
  constructor
  · cases hgoes with
    | refused => exact h
    | gone => exact h
    | switched => exact h
    | deleted =>
      intro held hheld
      cases hheld
    | @written patch body result present merged =>
      intro held hheld
      have hheld : result = held := Option.some.inj hheld
      rw [← hheld, merged]
      exact ((h body present).merge patch).collapse store.collapsing
  · intro answered hanswer
    cases hgoes with
    | @written patch body result present merged =>
      cases hanswer
      rw [merged]
      exact ((h body present).merge patch).collapse store.collapsing
    | _ => cases hanswer

theorem HoldsClean.run (h : store.HoldsClean) (operations : List Operation) :
    (run operations store).HoldsClean := by
  induction operations generalizing store with
  | nil => exact h
  | cons operation rest ih =>
    rw [run_cons]
    exact ih (h.record operation).after

theorem HoldsClean.history (h : store.HoldsClean) (operations : List Operation) :
    ∀ record ∈ history operations store, record.Clean := by
  induction operations generalizing store with
  | nil =>
    intro record hrecord
    cases hrecord
  | cons operation rest ih =>
    intro record hrecord
    rcases List.mem_cons.1 hrecord with rfl | hrecord
    · exact h.record operation
    · exact ih (h.record operation).after record hrecord

/-- A body that is an object without nulls stays one, whatever patches are written, and whatever
else is done to the store, for as long as the object is not deleted. The bodies that writes answer
with are such objects too. -/
theorem run_keeps_nulls_out {body : Body} (collapsing : List FieldPath)
    (operations : List Operation) (hobject : body.isObject = true) (hfree : body.nullFree = true) :
    (.delete ∉ operations → (run operations (ofBody body collapsing)).object.isSome = true) ∧
    (∀ held, (run operations (ofBody body collapsing)).object = some held →
      held.isObject = true ∧ held.nullFree = true) ∧
    ∀ record ∈ history operations (ofBody body collapsing), ∀ result,
      record.answer = some (.ok (some result)) →
        result.isObject = true ∧ result.nullFree = true := by
  have hclean := holdsClean_ofBody ⟨hobject, hfree⟩ collapsing
  refine ⟨isSome_run rfl operations, ?_, ?_⟩
  · intro held hheld
    have hend := hclean.run operations held hheld
    exact ⟨hend.object, hend.nullFree⟩
  · intro record hrecord result hanswer
    have hend := (hclean.history operations record hrecord).answer result hanswer
    exact ⟨hend.object, hend.nullFree⟩

/-- A body with a number under which there can be no field, and with a null that is in an array. -/
def unlimited : Body :=
  .objectOfList [("limits", .num (.integer 0)), ("hosts", .array [.null])]

/-- A patch with a null below the number, one below an object that the body lacks, and one that is
to remove what is not there. -/
def limiting : Patch :=
  ⟨.ofList [("limits", .objectOfList [("cpu", .null), ("memory", .num (.integer 2))]),
    ("status", .objectOfList [("reconciler", .objectOfList [("dummy", .null)])]),
    ("labels", .null)]⟩

/-- Writes are refused for a while, and then the patch is written twice. -/
def limited : List Operation :=
  [.setFailing (some "forbidden"), .write limiting, .setFailing none, .write limiting,
    .write limiting]

/-- What the patch makes of the body. -/
def limitedBody : Body :=
  .objectOfList [("hosts", .array [.null]),
    ("limits", .objectOfList [("memory", .num (.integer 2))]), ("status", .emptyObject)]

/-- Of the patch's nulls none is stored, and the objects that they were in are there without them,
unless they collapse. The null in the array is no field. -/
theorem limited_keeps_nulls_out :
    unlimited.isObject = true ∧ unlimited.nullFree = true ∧
      (run limited (ofBody unlimited [⟨["status", "reconciler"]⟩])).object = some limitedBody ∧
      limitedBody.isObject = true ∧ limitedBody.nullFree = true := by
  have hobject : unlimited.isObject = true := rfl
  have hfree : unlimited.nullFree = true := by decide
  have hheld : (run limited (ofBody unlimited [⟨["status", "reconciler"]⟩])).object =
      some limitedBody := by decide +kernel
  obtain ⟨-, hclean, -⟩ :=
    run_keeps_nulls_out [⟨["status", "reconciler"]⟩] limited hobject hfree
  exact ⟨hobject, hfree, hheld, hclean limitedBody hheld⟩

end Store

end ControlLoop
