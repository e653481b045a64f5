import ControlLoop.Proofs.Diff.Items
import ControlLoop.Proofs.Patch.Set
import ControlLoop.Proofs.Patching
import ControlLoop.Proofs.Store.Settled
import ControlLoop.Simulation

/-!
# What the check finds after a write to the store

Compared with what it became in the store, a patch differs only at collapsing
fields that are gone. The check passes over such a field if the patch held
nothing there, and finds it if the patch held an object that is not empty. Such
an object may consist of removals alone, and then the finding is no sign of a
write that went wrong.
-/

set_option autoImplicit false

namespace ControlLoop

/-- A field that the patch holds and that is gone, as the check reports it. -/
structure DiffItem.Collapsed (collapsing : List FieldPath) (item : DiffItem) : Prop where
  operation : item.operation = .remove
  field : item.field ∈ collapsing
  new : item.new = .null
  container : item.old.isObject = true ∨ item.old.isEmptyContainer = true

namespace Json

variable {collapsing : List FieldPath} {path : List String} {patch : Json} {held : Option Json}

theorem isNull_of_container {value : Json}
    (h : value.isObject = true ∨ value.isEmptyContainer = true) : value.isNull = false := by
  cases value with
  | null => rcases h with h | h <;> cases h
  | _ => rfl

/-- A container that is not empty is an object with fields. -/
theorem eq_object_of_container {value : Json}
    (h : value.isObject = true ∨ value.isEmptyContainer = true) (hfalsy : value.isFalsy = false) :
    ∃ fs : Fields Json, value = object fs ∧ fs.isEmpty = false := by
  cases value with
  | obj keys child => exact ⟨⟨keys, child⟩, rfl, hfalsy⟩
  | arr size item =>
    rcases h with h | h
    · cases h
    · rw [isFalsy, show (size == 0) = true from h] at hfalsy
      cases hfalsy
  | _ => rcases h with h | h <;> cases h

/-- Each difference of a settled part is a collapsed field that holds nothing any more. -/
theorem Settled.collapsed_of_mem (h : Settled collapsing path patch held) {item : DiffItem}
    (hitem : item ∈ Diff.between .left ⟨path⟩ patch (held.getD .null)) :
    item.Collapsed collapsing ∧ ∃ rest, item.field = ⟨path ++ rest⟩ ∧
      patch.get? rest = some item.old ∧ (held.bind fun value => value.get? rest) = none := by
  induction h with
  | removed path => cases hitem
  | @placed path value leaf present =>
    rw [Option.getD_some, Diff.between_leaf_left value leaf,
      Diff.whole_eq_nil_iff.2 (BEq.rfl : (value == value) = true)] at hitem
    cases hitem
  | @collapsed path patch mem container =>
    rw [Option.getD_none, Diff.between_leaf_right patch rfl,
      Diff.whole_null (isNull_of_container container), List.mem_singleton] at hitem
    subst hitem
    exact ⟨⟨rfl, mem, rfl, container⟩, [], by rw [List.append_nil], rfl, rfl⟩
  | @merged path changes fields inside ih =>
    obtain ⟨k, change, hk, hitem⟩ := Diff.mem_between_left_object.1 hitem
    obtain ⟨hcollapsed, rest, hfield, hold, hgone⟩ := ih k change hk hitem
    refine ⟨hcollapsed, k :: rest, ?_, ?_, ?_⟩
    · rw [hfield, List.append_assoc]; rfl
    · rw [get?_cons, fields_object, hk]; exact hold
    · rw [Option.bind_some, get?_cons, fields_object]; exact hgone

/-- What leads to an object with fields is itself neither null nor empty. -/
theorem isFalsy_of_get?_object {value : Json} {rest : List String} {fs : Fields Json}
    (h : value.get? rest = some (.object fs)) (hfs : fs.isEmpty = false) :
    value.isFalsy = false := by
  cases rest with
  | nil =>
    cases Option.some.inj h
    exact hfs
  | cons k ks =>
    cases value using fieldsInduction with
    | leaf value hleaf => rw [get?_leaf hleaf] at h; cases h
    | object fields =>
      cases hk : fields.get? k with
      | none => rw [get?_cons, fields_object, hk] at h; cases h
      | some child =>
        have hmem : k ∈ fields.keys := Fields.isSome_get?.1 (by rw [hk]; rfl)
        show fields.keys.isEmpty = false
        rw [Bool.eq_false_iff, ne_eq, KeySet.isEmpty_iff]
        exact fun hnone => hnone k hmem

/-- An object with fields that is gone is among the differences, or an ancestor of it is. -/
theorem Settled.exists_mem_of_gone (h : Settled collapsing path patch held) {rest : List String}
    {fs : Fields Json} (hpatch : patch.get? rest = some (.object fs)) (hfs : fs.isEmpty = false)
    (hgone : (held.bind fun value => value.get? rest) = none) :
    ∃ item ∈ Diff.between .left ⟨path⟩ patch (held.getD .null), item.old.isFalsy = false := by
  induction h generalizing rest with
  | removed path =>
    have := isFalsy_of_get?_object hpatch hfs
    cases this
  | @placed path value leaf present =>
    rw [Option.bind_some, hpatch] at hgone
    cases hgone
  | @collapsed path patch mem container =>
    have hfalsy := isFalsy_of_get?_object hpatch hfs
    refine ⟨⟨.remove, ⟨path⟩, patch, .null⟩, ?_, hfalsy⟩
    rw [Option.getD_none, Diff.between_leaf_right patch rfl,
      Diff.whole_null (isNull_of_container container)]
    exact List.mem_singleton_self _
  | @merged path changes fields inside ih =>
    cases rest with
    | nil => cases hgone
    | cons k ks =>
      rw [get?_cons, fields_object] at hpatch
      obtain ⟨change, hk, hchange⟩ := Option.bind_eq_some_iff.1 hpatch
      rw [Option.bind_some, get?_cons, fields_object] at hgone
      obtain ⟨item, hitem, hold⟩ := ih k change hk hchange hgone
      exact ⟨item, Diff.mem_between_left_object.2 ⟨k, change, hk, hitem⟩, hold⟩

end Json

namespace Store

/-- A collapsing field is gone at which the patch held an object with fields. -/
def Vanished (collapsing : List FieldPath) (patch : Patch) (resulting : Body) : Prop :=
  ∃ field ∈ collapsing, ∃ fs : Fields Json, patch.get? field = some (.object fs) ∧
    fs.isEmpty = false ∧ Body.contains resulting field = false

section Settled

variable {collapsing : List FieldPath} {patch : Patch} {resulting : Body} {item : DiffItem}

/-- A settled patch differs from the body only at collapsing fields that are gone, and holds there
what the item says. -/
theorem collapsed_of_mem_diff (h : Json.Settled collapsing [] patch.toJson (some resulting))
    (hitem : item ∈ patch.toJson.diff resulting .left) :
    item.Collapsed collapsing ∧ patch.get? item.field = some item.old ∧
      Body.contains resulting item.field = false := by
  obtain ⟨hcollapsed, rest, hfield, hold, hgone⟩ := h.collapsed_of_mem hitem
  cases rest with
  | nil => cases hgone
  | cons k ks =>
    refine ⟨hcollapsed, ?_, ?_⟩
    · rw [hfield]; exact hold
    · rw [hfield, Body.contains, Option.isSome_eq_false_iff, Option.isNone_iff_eq_none]
      exact hgone

/-- With the collapsing fields known, a difference counts only if the patch held an object with
fields. -/
theorem object_of_mem_inconsistencies {known : List FieldPath}
    (h : Json.Settled collapsing [] patch.toJson (some resulting)) (hknown : collapsing ⊆ known)
    (hitem : item ∈ Consistency.inconsistencies patch resulting known) :
    ∃ fs : Fields Json, item.old = .object fs ∧ fs.isEmpty = false := by
  obtain ⟨hdiff, hcounts⟩ := List.mem_filter.1 hitem
  have hcollapsed := (collapsed_of_mem_diff h hdiff).1
  have hfalsy : item.old.isFalsy = false := by
    have hnew : Json.null.isFalsy = true := rfl
    simpa [Consistency.counts, hcollapsed.new, hknown hcollapsed.field, hnew] using hcounts
  exact Json.eq_object_of_container hcollapsed.container hfalsy

/-- With the collapsing fields known, the check of a settled patch finds what vanished and nothing
else. -/
theorem inconsistencies_eq_nil_iff
    (h : Json.Settled collapsing [] patch.toJson (some resulting)) :
    Consistency.inconsistencies patch resulting collapsing = [] ↔
      ¬ Vanished collapsing patch resulting := by
  rw [List.eq_nil_iff_forall_not_mem]
  constructor
  · rintro hnone ⟨field, -, fs, hheld, hfs, hgone⟩
    have hpatch : patch.toJson.get? field.keys = some (.object fs) := by
      rw [Patch.get?] at hheld
      split at hheld
      · cases hheld
      · exact hheld
    have hlost : resulting.get? field.keys = none := by simpa [Body.contains, Body.at?] using hgone
    obtain ⟨item, hitem, hold⟩ := h.exists_mem_of_gone hpatch hfs hlost
    exact hnone item (List.mem_filter.2 ⟨hitem, by simp [Consistency.counts, hold]⟩)
  · intro hkept item hitem
    obtain ⟨hcollapsed, hheld, hgone⟩ := collapsed_of_mem_diff h (List.mem_filter.1 hitem).1
    obtain ⟨fs, hobject, hfs⟩ := object_of_mem_inconsistencies h (List.Subset.refl _) hitem
    exact hkept ⟨item.field, hcollapsed.field, fs, hobject ▸ hheld, hfs, hgone⟩

end Settled

/-- A write that answers with a body merged the patch and collapsed the fields. -/
theorem eq_collapse_of_patch {store : Store} {patch : Patch} {resulting : Body}
    (h : (store.patch patch).1 = .ok (some resulting)) :
    ∃ body, store.object = some body ∧
      resulting = collapse store.collapsing (body.merge patch.toJson) := by
  unfold Store.patch at h
  split at h
  · cases h
  · cases h
  · next body _ hbody =>
    cases h
    exact ⟨body, hbody, rfl⟩

theorem settled_of_patch {store : Store} {patch : Patch} {resulting : Body}
    (h : (store.patch patch).1 = .ok (some resulting)) :
    Json.Settled store.collapsing [] patch.toJson (some resulting) := by
  obtain ⟨body, -, rfl⟩ := eq_collapse_of_patch h
  exact Json.settled_collapse patch body

theorem not_vanished_of_isEmpty {collapsing : List FieldPath} {patch : Patch} {resulting : Body}
    (h : patch.isEmpty = true) : ¬ Vanished collapsing patch resulting := by
  rintro ⟨⟨keys⟩, -, fs, hheld, -, -⟩
  cases keys with
  | nil => cases hheld
  | cons k ks =>
    have hnone : patch.fields.get? k = none := Patch.isEmpty_iff.1 h k
    rw [Patch.get?, Patch.toJson, Json.get?_cons, Json.fields_object, hnone] at hheld
    cases hheld

/-- The notes that a checked write to the store adds to the log. -/
theorem log_patchAndCheck (known : List FieldPath) {patch : Patch} (body : Body)
    (world : World Scene) (h : patch.isEmpty = false) :
    (Scene.patcher.patchAndCheck known patch body world).2.log = world.log ++
      (.patching patch :: Patcher.findings known patch (world.env.store.patch patch).1).map
        fun notice => ⟨notice, world.span⟩ := by
  rw [Patcher.patchAndCheck_nonempty _ _ _ _ h]
  simp [Scene.patcher]

/-- A write to the store, checked with the store's own collapsing fields taken as known, is found
inconsistent, and warned about, just if a collapsing field vanished at which the patch held an
object with fields. -/
theorem alarm_iff_vanished (world : World Scene) (patch : Patch) (body : Body) :
    (∀ resulting, (world.env.store.patch patch).1 = .ok (some resulting) →
      (Consistency.inconsistencies patch resulting world.env.store.collapsing = [] ↔
        ¬ Vanished world.env.store.collapsing patch resulting)) ∧
    ((∃ record ∈ (Scene.patcher.patchAndCheck world.env.store.collapsing patch body
        world).2.log.drop world.log.length, record.notice.level = .warn) ↔
      ∃ resulting, (world.env.store.patch patch).1 = .ok (some resulting) ∧
        Vanished world.env.store.collapsing patch resulting) := by
  refine ⟨fun resulting h => inconsistencies_eq_nil_iff (settled_of_patch h), ?_⟩
  by_cases hempty : patch.isEmpty = true
  · rw [Patcher.patchAndCheck_empty _ _ _ _ hempty]
    simp [not_vanished_of_isEmpty hempty]
  · rw [log_patchAndCheck _ _ _ (Bool.eq_false_iff.2 hempty), List.drop_left]
    have hwarn := Patcher.warn_findings_iff world.env.store.collapsing patch
      (world.env.store.patch patch).1
    constructor
    · rintro ⟨record, hrecord, hlevel⟩
      obtain ⟨notice, hnotice, rfl⟩ := List.mem_map.1 hrecord
      rcases List.mem_cons.1 hnotice with rfl | hnotice
      · cases hlevel
      · obtain ⟨resulting, hanswer, hfound⟩ := hwarn.1 ⟨notice, hnotice, hlevel⟩
        refine ⟨resulting, hanswer, Classical.not_not.1 fun hkept => hfound ?_⟩
        exact (inconsistencies_eq_nil_iff (settled_of_patch hanswer)).2 hkept
    · rintro ⟨resulting, hanswer, hvanished⟩
      obtain ⟨notice, hnotice, hlevel⟩ := hwarn.2 ⟨resulting, hanswer, fun hnone =>
        (inconsistencies_eq_nil_iff (settled_of_patch hanswer)).1 hnone hvanished⟩
      exact ⟨_, List.mem_map.2 ⟨notice, List.mem_cons_of_mem _ hnotice, rfl⟩, hlevel⟩

/-- A body with one list and one map that collapse when they are empty. -/
def collapsible : Body :=
  .objectOfList [("metadata", .objectOfList
    [("finalizers", .array [.str "hold"]), ("labels", .objectOfList [("app", .str "web")])])]

/-- A world with a store of that body. -/
def collapsibleWorld : World Scene where
  clock := .start
  stamp := fun n => toString n
  env := ⟨.ofBody collapsible [⟨["metadata", "finalizers"]⟩, ⟨["metadata", "labels"]⟩], []⟩

/-- A patch that empties the list by saying so. -/
def listEmptied : Patch :=
  ⟨.ofList [("metadata", .objectOfList [("finalizers", .array [])])]⟩

/-- The body without the list. -/
def withoutList : Body :=
  .objectOfList [("metadata", .objectOfList [("labels", .objectOfList [("app", .str "web")])])]

/-- An emptied list vanishes from the store without an alarm. -/
theorem listEmptied_raises_no_alarm :
    (collapsibleWorld.env.store.patch listEmptied).1 = .ok (some withoutList) ∧
    Consistency.inconsistencies listEmptied withoutList
      collapsibleWorld.env.store.collapsing = [] := by
  have hwrite : (collapsibleWorld.env.store.patch listEmptied).1 = .ok (some withoutList) := rfl
  refine ⟨hwrite, ((alarm_iff_vanished collapsibleWorld listEmptied collapsible).1 _ hwrite).2 ?_⟩
  rintro ⟨field, hfield, fs, hheld, -, -⟩
  rcases List.mem_cons.1 hfield with rfl | hfield
  · cases hheld
  · rw [List.mem_singleton.1 hfield] at hheld
    cases hheld

/-- A patch that empties the map by removing the only label in it. -/
def labelRemoved : Patch :=
  ⟨.ofList [("metadata", .objectOfList [("labels", .objectOfList [("app", .null)])])]⟩

/-- The body without the map. -/
def withoutMap : Body :=
  .objectOfList [("metadata", .objectOfList [("finalizers", .array [.str "hold"])])]

/-- The removal of the last label is done as asked for, and there is an alarm. -/
theorem labelRemoved_raises_alarm :
    (collapsibleWorld.env.store.patch labelRemoved).1 = .ok (some withoutMap) ∧
    Consistency.inconsistencies labelRemoved withoutMap
      collapsibleWorld.env.store.collapsing ≠ [] ∧
    ∃ record ∈ (Scene.patcher.patchAndCheck collapsibleWorld.env.store.collapsing labelRemoved
      collapsible collapsibleWorld).2.log, record.notice.level = .warn :=
  ⟨rfl, by decide, by decide⟩

/-- What a write leaves different from its patch are collapsing fields that are gone. The patch held
an object or an empty array there; with these fields known, the check finds objects with fields
alone. -/
theorem diverges_only_by_collapsing {store : Store} {patch : Patch} {resulting : Body}
    (h : (store.patch patch).1 = .ok (some resulting)) :
    (∀ item ∈ patch.toJson.diff resulting .left,
      item.Collapsed store.collapsing ∧ patch.get? item.field = some item.old) ∧
    ∀ known, store.collapsing ⊆ known →
      ∀ item ∈ Consistency.inconsistencies patch resulting known,
        ∃ fs : Fields Json, item.old = .object fs ∧ fs.isEmpty = false := by
  have hsettled := settled_of_patch h
  constructor
  · intro item hitem
    obtain ⟨hcollapsed, hheld, -⟩ := collapsed_of_mem_diff hsettled hitem
    exact ⟨hcollapsed, hheld⟩
  · intro known hknown item hitem
    exact object_of_mem_inconsistencies hsettled hknown hitem

/-- A patch that empties the list and the map. -/
def bothEmptied : Patch :=
  ⟨.ofList [("metadata", .objectOfList
    [("finalizers", .array []), ("labels", .objectOfList [("app", .null)])])]⟩

/-- The list as the comparison shows it once it is gone. -/
def listGone : DiffItem := ⟨.remove, ⟨["metadata", "finalizers"]⟩, .array [], .null⟩

/-- The map as the comparison shows it once it is gone. -/
def mapGone : DiffItem :=
  ⟨.remove, ⟨["metadata", "labels"]⟩, .objectOfList [("app", .null)], .null⟩

/-- The body without either. -/
def withoutBoth : Body := .objectOfList [("metadata", .objectOfList [])]

/-- Both collapse, and of the two the check finds the map. -/
theorem bothEmptied_diverges :
    (collapsibleWorld.env.store.patch bothEmptied).1 = .ok (some withoutBoth) ∧
    listGone.Collapsed collapsibleWorld.env.store.collapsing ∧
    Consistency.inconsistencies bothEmptied withoutBoth
      (⟨["status"]⟩ :: collapsibleWorld.env.store.collapsing) = [mapGone] ∧
    ∃ fs : Fields Json, mapGone.old = .object fs ∧ fs.isEmpty = false := by
  have hwrite : (collapsibleWorld.env.store.patch bothEmptied).1 = .ok (some withoutBoth) := rfl
  have hfound : Consistency.inconsistencies bothEmptied withoutBoth
      (⟨["status"]⟩ :: collapsibleWorld.env.store.collapsing) = [mapGone] := by decide
  obtain ⟨hdiff, hfinding⟩ := diverges_only_by_collapsing hwrite
  refine ⟨hwrite, (hdiff listGone (by decide)).1, hfound, ?_⟩
  exact hfinding _ (List.subset_cons_self _ _) _ (hfound ▸ List.mem_singleton_self _)

end Store

end ControlLoop
