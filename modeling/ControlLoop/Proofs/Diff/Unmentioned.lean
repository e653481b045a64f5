import Mathlib.Data.List.Basic
import ControlLoop.Consistency
import ControlLoop.Proofs.Diff.Places

/-!
# What a patch does not mention

Where a patch and two bodies hold objects, the patch does not look at members
that it has no key for. Two bodies that differ in such members alone, at however
many places, are the same to the check of the patch: it finds the same fields in
the same order.
-/

set_option autoImplicit false

namespace ControlLoop

namespace Json

/-- A patch and two bodies hold objects at a path. -/
def MeetAt (patch a b : Json) (path : List String) : Prop :=
  (patch.valueAt path).isObject = true ∧ BothObjects (a.valueAt path) (b.valueAt path)

/-- A path leads through a member that the patch has no key for, at a place where the patch and
both bodies hold objects. -/
def PassesBy (patch a b : Json) (path : List String) : Prop :=
  ∃ place k, place ++ [k] <+: path ∧ MeetAt patch a b place ∧ patch.get? (place ++ [k]) = none

/-- Two bodies differ only in members that the patch does not mention. At any path they hold the
same, unless it leads through such a member or to objects which may differ further down. -/
def DifferUnmentioned (patch a b : Json) : Prop :=
  ∀ path, a.get? path = b.get? path ∨ MeetAt patch a b path ∨ PassesBy patch a b path

variable {changes fs gs : Fields Json} {k : String} {ks : List String}

theorem meetAt_nil {patch a b : Json} :
    MeetAt patch a b [] ↔ patch.isObject = true ∧ BothObjects a b := Iff.rfl

theorem meetAt_object_cons :
    MeetAt (object changes) (object fs) (object gs) (k :: ks) ↔
      MeetAt ((changes.get? k).getD .null) ((fs.get? k).getD .null)
        ((gs.get? k).getD .null) ks := by
  simp only [MeetAt, valueAt_object_cons]

theorem not_passesBy_nil (patch a b : Json) : ¬ PassesBy patch a b [] := by
  rintro ⟨place, k, hprefix, -⟩
  exact absurd (List.prefix_nil.1 hprefix) (by simp)

theorem passesBy_object_cons :
    PassesBy (object changes) (object fs) (object gs) (k :: ks) ↔ changes.get? k = none ∨
      PassesBy ((changes.get? k).getD .null) ((fs.get? k).getD .null)
        ((gs.get? k).getD .null) ks := by
  constructor
  · rintro ⟨place, j, hprefix, hmeet, hnone⟩
    cases place with
    | nil =>
      obtain ⟨rfl, -⟩ := List.cons_prefix_cons.1 hprefix
      exact Or.inl ((get?_concat_of_object rfl _).symm.trans hnone)
    | cons i is =>
      rw [List.cons_append] at hprefix hnone
      obtain ⟨rfl, hrest⟩ := List.cons_prefix_cons.1 hprefix
      rw [get?_cons, fields_object] at hnone
      cases hk : changes.get? i with
      | none => exact Or.inl rfl
      | some change =>
        rw [meetAt_object_cons, hk] at hmeet
        rw [hk] at hnone
        exact Or.inr ⟨is, j, hrest, hmeet, hnone⟩
  · rintro (hk | ⟨place, j, hprefix, hmeet, hnone⟩)
    · exact ⟨[], k, List.cons_prefix_cons.2 ⟨rfl, List.nil_prefix⟩,
        ⟨rfl, bothObjects_object fs gs⟩, (get?_concat_of_object rfl k).trans hk⟩
    · refine ⟨k :: place, j, List.cons_prefix_cons.2 ⟨rfl, hprefix⟩, meetAt_object_cons.2 hmeet, ?_⟩
      rw [List.cons_append, get?_cons, fields_object]
      cases hk : changes.get? k with
      | none => rfl
      | some change => rw [hk] at hnone; exact hnone

/-- Without a place for members that differ there is no difference. -/
theorem DifferUnmentioned.eq {patch a b : Json} (h : DifferUnmentioned patch a b)
    (hmeet : ¬ MeetAt patch a b []) : a = b := by
  rcases h [] with hsame | hobjects | hpass
  · exact Option.some.inj hsame
  · exact absurd hobjects hmeet
  · exact absurd hpass (not_passesBy_nil _ _ _)

/-- What two objects hold at a key that the patch has is the same, or differs in turn in members
alone that the patch does not mention. -/
theorem differUnmentioned_object_iff :
    DifferUnmentioned (object changes) (object fs) (object gs) ↔
      ∀ k change, changes.get? k = some change → fs.get? k = gs.get? k ∨
        ∃ child other, fs.get? k = some child ∧ gs.get? k = some other ∧
          DifferUnmentioned change child other := by
  constructor
  · intro h k change hk
    have hinside : ∀ path, (fs.get? k).bind (·.get? path) = (gs.get? k).bind (·.get? path) ∨
        MeetAt change ((fs.get? k).getD .null) ((gs.get? k).getD .null) path ∨
        PassesBy change ((fs.get? k).getD .null) ((gs.get? k).getD .null) path := by
      intro path
      have hpath := h (k :: path)
      rw [meetAt_object_cons, passesBy_object_cons, hk] at hpath
      simpa [get?_cons] using hpath
    rcases hinside [] with hsame | hmeet | hpass
    · exact Or.inl (by simpa using hsame)
    · obtain ⟨-, hchild, hother⟩ := meetAt_nil.1 hmeet
      obtain ⟨child, hf⟩ := exists_of_isObject_getD hchild
      obtain ⟨other, hg⟩ := exists_of_isObject_getD hother
      rw [hf, hg] at hinside
      exact Or.inr ⟨child, other, hf, hg, hinside⟩
    · exact absurd hpass (not_passesBy_nil _ _ _)
  · intro h path
    cases path with
    | nil => exact Or.inr (Or.inl ⟨rfl, bothObjects_object fs gs⟩)
    | cons k ks =>
      rw [meetAt_object_cons, passesBy_object_cons, get?_cons, get?_cons, fields_object,
        fields_object]
      cases hk : changes.get? k with
      | none => exact Or.inr (Or.inr (Or.inl rfl))
      | some change =>
        rcases h k change hk with hsame | ⟨child, other, hf, hg, hinside⟩
        · exact Or.inl (by rw [hsame])
        · rw [hf, hg]
          exact (hinside ks).imp_right (Or.imp_right Or.inr)

end Json

namespace DiffScope

/-- The keys of a patch are compared in the same order with bodies that have the same of them. -/
theorem comparedKeys_left_congr {left right right' : KeySet}
    (h : ∀ k ∈ left, k ∈ right ↔ k ∈ right') :
    DiffScope.left.comparedKeys left right = DiffScope.left.comparedKeys left right' := by
  have hsame : ∀ k ∈ left.toList, decide (k ∈ right) = decide (k ∈ right') := by
    intro k hk
    exact decide_eq_decide.2 (h k hk)
  have hother : ∀ k ∈ left.toList, decide (k ∉ right) = decide (k ∉ right') := by
    intro k hk
    exact decide_eq_decide.2 (not_congr (h k hk))
  rw [comparedKeys, comparedKeys, List.filter_congr hsame, List.filter_congr hother]
  rfl

end DiffScope

namespace Diff

/-- Nothing that a patch does not mention is seen from it. -/
theorem between_left_congr {path : FieldPath} {patch a b : Json}
    (h : Json.DifferUnmentioned patch a b) :
    between .left path patch a = between .left path patch b := by
  induction patch using Json.fieldsInduction generalizing path a b with
  | leaf patch hpatch =>
    rw [h.eq fun hmeet => Bool.false_ne_true (hpatch.symm.trans hmeet.1)]
  | object changes ih =>
    cases a using Json.fieldsInduction with
    | leaf a ha => rw [h.eq fun hmeet => Bool.false_ne_true (ha.symm.trans hmeet.2.1)]
    | object fs =>
      cases b using Json.fieldsInduction with
      | leaf b hb => rw [h.eq fun hmeet => Bool.false_ne_true (hb.symm.trans hmeet.2.2)]
      | object gs =>
        have hinside := Json.differUnmentioned_object_iff.1 h
        have hpresence : ∀ k ∈ changes.keys, k ∈ fs.keys ↔ k ∈ gs.keys := by
          intro k hk
          rw [← Fields.isSome_get?, ← Fields.isSome_get?]
          rcases hinside k _ (Fields.get?_of_mem hk) with hsame | ⟨child, other, hf, hg, -⟩
          · rw [hsame]
          · rw [hf, hg]; rfl
        rw [between_object, between_object, DiffScope.comparedKeys_left_congr hpresence]
        refine List.flatMap_congr fun k hk => ?_
        rw [DiffScope.mem_comparedKeys, DiffScope.compares_left, decide_eq_true_iff] at hk
        have hchange := Fields.get?_of_mem hk
        rw [atKey, atKey, hchange, Option.getD_some]
        rcases hinside k _ hchange with hsame | ⟨child, other, hf, hg, hdiffer⟩
        · rw [hsame]
        · rw [hf, hg]
          exact ih k _ hchange hdiffer

end Diff

namespace Consistency

/-- The check of a patch finds the same, in the same order, in bodies that differ only in members
that the patch does not mention. -/
theorem inconsistencies_eq_of_unmentioned {patch : Patch} {a b : Body}
    (h : Json.DifferUnmentioned patch.toJson a b) (known : List FieldPath) :
    inconsistencies patch a known = inconsistencies patch b known :=
  congrArg (List.filter (counts known)) (Diff.between_left_congr h)

/-- A patch that asks for three replicas. -/
def rescaling : Patch :=
  ⟨.ofList [("spec", .objectOfList [("replicas", .num (.integer 3))])]⟩

/-- A body with two replicas. -/
def labelled : Body :=
  .objectOfList [("metadata", .objectOfList [("labels", .emptyObject)]), ("spec", .objectOfList
    [("image", .str "web:1"), ("paused", .null), ("replicas", .num (.integer 2))])]

/-- A body with two replicas, and with everything else in it different. -/
def reported : Body :=
  .objectOfList [("spec", .objectOfList
    [("image", .str "web:2"), ("replicas", .num (.integer 2)), ("tier", .bool false)]),
    ("status", .objectOfList [("phase", .str "Ready")])]

/-- The missing replica is found in either body, and nothing else. -/
theorem rescaling_finds_same :
    Json.DifferUnmentioned rescaling.toJson labelled reported ∧
      inconsistencies rescaling labelled [] = inconsistencies rescaling reported [] ∧
      (inconsistencies rescaling reported []).map (·.field) = [⟨["spec", "replicas"]⟩] := by
  have hspec : Json.DifferUnmentioned (.objectOfList [("replicas", .num (.integer 3))])
      (.objectOfList [("image", .str "web:1"), ("paused", .null), ("replicas", .num (.integer 2))])
      (.objectOfList
        [("image", .str "web:2"), ("replicas", .num (.integer 2)), ("tier", .bool false)]) := by
    refine Json.differUnmentioned_object_iff.2 fun k change hk => Or.inl ?_
    have hmem : k ∈ ["replicas"] := Fields.isSome_get?.1 (by rw [hk]; rfl)
    rw [List.mem_singleton.1 hmem]
    rfl
  have hdiffer : Json.DifferUnmentioned rescaling.toJson labelled reported := by
    refine Json.differUnmentioned_object_iff.2 fun k change hk => Or.inr ?_
    have hmem : k ∈ ["spec"] := Fields.isSome_get?.1 (by rw [hk]; rfl)
    rw [List.mem_singleton.1 hmem] at hk ⊢
    cases hk
    exact ⟨_, _, rfl, rfl, hspec⟩
  exact ⟨hdiffer, inconsistencies_eq_of_unmentioned hdiffer [], by decide⟩

end Consistency

end ControlLoop
