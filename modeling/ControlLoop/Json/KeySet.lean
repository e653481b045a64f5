/-!
# Key sets

The keys of an object form a finite set of strings, held in ascending order.
The order is part of the type, so two key sets with the same members are equal
and every walk over an object meets its keys in the same order. Strings compare
by code point, which is also the order of their UTF-8 bytes.
-/

set_option autoImplicit false

namespace ControlLoop

/-- A finite set of keys, listed in strictly ascending order. -/
structure KeySet where
  toList : List String
  ascending : toList.Pairwise (· < ·)
deriving DecidableEq

namespace KeySet

instance : Membership String KeySet := ⟨fun ks k => k ∈ ks.toList⟩

instance (k : String) (ks : KeySet) : Decidable (k ∈ ks) :=
  inferInstanceAs (Decidable (k ∈ ks.toList))

@[simp] theorem mem_toList {k : String} {ks : KeySet} : k ∈ ks.toList ↔ k ∈ ks := Iff.rfl

@[simp] theorem mem_mk {k : String} {l : List String} {h : l.Pairwise (· < ·)} :
    k ∈ (⟨l, h⟩ : KeySet) ↔ k ∈ l := Iff.rfl

/-- Two ascending lists with the same members are the same list. -/
theorem ascending_unique : ∀ {l r : List String}, l.Pairwise (· < ·) → r.Pairwise (· < ·) →
    (∀ k, k ∈ l ↔ k ∈ r) → l = r
  | [], [], _, _, _ => rfl
  | [], y :: _, _, _, h => absurd ((h y).2 (by simp)) (by simp)
  | x :: _, [], _, _, h => absurd ((h x).1 (by simp)) (by simp)
  | x :: l, y :: r, hl, hr, h => by
    rw [List.pairwise_cons] at hl hr
    have hxy : x = y := by
      rcases List.mem_cons.1 ((h x).1 (by simp)) with hx | hx
      · exact hx
      · rcases List.mem_cons.1 ((h y).2 (by simp)) with hy | hy
        · exact hy.symm
        · exact absurd (hl.1 y hy) (String.lt_asymm (hr.1 x hx))
    subst hxy
    have hlr : l = r := ascending_unique hl.2 hr.2 fun k => by
      constructor
      · intro hk
        rcases List.mem_cons.1 ((h k).1 (List.mem_cons_of_mem _ hk)) with rfl | hk'
        · exact absurd (hl.1 _ hk) (String.lt_irrefl _)
        · exact hk'
      · intro hk
        rcases List.mem_cons.1 ((h k).2 (List.mem_cons_of_mem _ hk)) with rfl | hk'
        · exact absurd (hr.1 _ hk) (String.lt_irrefl _)
        · exact hk'
    rw [hlr]

/-- A key set is determined by its members. -/
@[ext] theorem ext {a b : KeySet} (h : ∀ k, k ∈ a ↔ k ∈ b) : a = b := by
  cases a with
  | mk l hl =>
    cases b with
    | mk r hr =>
      have : l = r := ascending_unique hl hr h
      subst this
      rfl

theorem nodup_toList (ks : KeySet) : ks.toList.Nodup := by
  refine ks.ascending.imp fun {j k} hlt heq => ?_
  exact String.lt_irrefl k (heq ▸ hlt)

/-- No keys. -/
def empty : KeySet := ⟨[], .nil⟩

@[simp] theorem not_mem_empty {k : String} : k ∉ empty := by simp [empty]

/-- The place of a key in an ascending list is found by comparing. -/
def insertAscending (k : String) : List String → List String
  | [] => [k]
  | x :: xs =>
    if k < x then k :: x :: xs
    else if k = x then x :: xs
    else x :: insertAscending k xs

theorem mem_insertAscending {k j : String} {l : List String} :
    j ∈ insertAscending k l ↔ j = k ∨ j ∈ l := by
  induction l with
  | nil => simp [insertAscending]
  | cons x xs ih =>
    simp only [insertAscending]
    split
    · simp
    · split
      · next h => subst h; simp
      · simp only [List.mem_cons, ih]
        exact or_left_comm

theorem pairwise_insertAscending {k : String} {l : List String} (h : l.Pairwise (· < ·)) :
    (insertAscending k l).Pairwise (· < ·) := by
  induction l with
  | nil => simp [insertAscending]
  | cons x xs ih =>
    have hx := List.pairwise_cons.1 h
    simp only [insertAscending]
    split
    · next hk =>
      refine List.pairwise_cons.2 ⟨fun y hy => ?_, h⟩
      rcases List.mem_cons.1 hy with rfl | hy
      · exact hk
      · exact String.lt_trans hk (hx.1 y hy)
    · next hk =>
      split
      · exact h
      · next hne =>
        refine List.pairwise_cons.2 ⟨fun y hy => ?_, ih hx.2⟩
        rcases mem_insertAscending.1 hy with rfl | hy
        · exact Decidable.byContradiction fun hlt =>
            hne (String.le_antisymm (String.not_lt.1 hlt) (String.not_lt.1 hk))
        · exact hx.1 y hy

/-- The set with one key added. -/
def insert (ks : KeySet) (k : String) : KeySet :=
  ⟨insertAscending k ks.toList, pairwise_insertAscending ks.ascending⟩

@[simp] theorem mem_insert {ks : KeySet} {k j : String} : j ∈ ks.insert k ↔ j = k ∨ j ∈ ks :=
  mem_insertAscending

/-- The members of two sets that are also in the other one are the same. -/
theorem filter_mem_comm (a b : KeySet) :
    a.toList.filter (· ∈ b) = b.toList.filter (· ∈ a) :=
  ascending_unique (a.ascending.filter _) (b.ascending.filter _) fun k => by
    simp [List.mem_filter, and_comm]

/-- The keys of a list, repeated ones once. -/
def ofList (l : List String) : KeySet := l.foldr (fun k ks => ks.insert k) empty

@[simp] theorem mem_ofList {l : List String} {k : String} : k ∈ ofList l ↔ k ∈ l := by
  induction l with
  | nil => simp [ofList]
  | cons x xs ih => rw [ofList, List.foldr_cons, mem_insert, ← ofList, ih, List.mem_cons]

/-- The keys of either set. -/
def union (a b : KeySet) : KeySet := a.toList.foldr (fun k ks => ks.insert k) b

@[simp] theorem mem_union {a b : KeySet} {k : String} : k ∈ a.union b ↔ k ∈ a ∨ k ∈ b := by
  cases a with
  | mk l hl =>
    simp only [union, mem_mk]
    clear hl
    induction l with
    | nil => simp
    | cons x xs ih => simp [ih, or_assoc]

/-- The members, each with the fact that it is one. -/
def members (ks : KeySet) : List {k // k ∈ ks} := ks.toList.attach

@[simp] theorem mem_members {ks : KeySet} (k : {k // k ∈ ks}) : k ∈ ks.members :=
  List.mem_attach ks.toList k

theorem ascending_members (ks : KeySet) : ks.members.Pairwise fun j k => j.1 < k.1 := by
  have h := ks.ascending
  rw [← List.attach_map_subtype_val ks.toList, List.pairwise_map] at h
  exact h

/-- A walk over a set that has something to say only at the members of some kind. -/
theorem flatMap_members {α : Type} {ks : KeySet} (p : String → Prop) [DecidablePred p]
    {f : {k // k ∈ ks} → List α} {g : String → List α} (hp : ∀ k, p k.1 → f k = g k.1)
    (hnp : ∀ k, ¬ p k.1 → f k = []) :
    ks.members.flatMap f = (ks.toList.filter (p ·)).flatMap g := by
  have hval : ∀ (k : String) (h : k ∈ ks), f ⟨k, h⟩ = if p k then g k else [] := by
    intro k h
    split
    · next hk => exact hp ⟨k, h⟩ hk
    · next hk => exact hnp ⟨k, h⟩ hk
  rw [List.flatMap_subtype hval, members, List.unattach_attach]
  induction ks.toList with
  | nil => rfl
  | cons k l ih => by_cases h : p k <;> simp [h, ih]

/-- Whether the set has no member. -/
def isEmpty (ks : KeySet) : Bool := ks.toList.isEmpty

theorem isEmpty_iff {ks : KeySet} : ks.isEmpty = true ↔ ∀ k, k ∉ ks := by
  simp [isEmpty, List.isEmpty_iff, List.eq_nil_iff_forall_not_mem]

end KeySet

end ControlLoop
