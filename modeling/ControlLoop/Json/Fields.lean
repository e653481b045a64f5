import ControlLoop.Json.KeySet

/-!
# Fields

The fields of an object: a key set and a value for each of its keys. Fields are
read by `get?` and are equal when they read the same at every key. Every
operation that builds fields is a `collect`: it names the keys that may occur
and says what each of them holds, if anything.
-/

set_option autoImplicit false

namespace ControlLoop

/-- A finite map from keys to values, ordered by key. -/
structure Fields (α : Type) where
  keys : KeySet
  value : {k // k ∈ keys} → α

namespace Fields

variable {α : Type}

/-- What a key holds. -/
def get? (fs : Fields α) (k : String) : Option α :=
  if h : k ∈ fs.keys then some (fs.value ⟨k, h⟩) else none

theorem get?_of_mem {fs : Fields α} {k : String} (h : k ∈ fs.keys) :
    fs.get? k = some (fs.value ⟨k, h⟩) := dif_pos h

@[simp] theorem get?_eq_none_iff {fs : Fields α} {k : String} :
    fs.get? k = none ↔ k ∉ fs.keys := by
  unfold get?; split <;> simp_all

@[simp] theorem isSome_get? {fs : Fields α} {k : String} :
    (fs.get? k).isSome = true ↔ k ∈ fs.keys := by
  unfold get?; split <;> simp_all

/-- A key is among the keys just if something is held there. -/
theorem isSome_get?_eq (fs : Fields α) (k : String) :
    (fs.get? k).isSome = decide (k ∈ fs.keys) := by
  rw [Bool.eq_iff_iff, isSome_get?, decide_eq_true_iff]

/-- Fields that read the same at every key are equal. -/
@[ext] theorem ext {a b : Fields α} (h : ∀ k, a.get? k = b.get? k) : a = b := by
  obtain ⟨ka, va⟩ := a
  obtain ⟨kb, vb⟩ := b
  have hk : ka = kb := by
    ext k
    have hk := congrArg Option.isSome (h k)
    rw [Bool.eq_iff_iff, isSome_get?, isSome_get?] at hk
    exact hk
  subst hk
  have hv : va = vb := by
    funext k
    have hk := h k.1
    rw [@get?_of_mem _ ⟨ka, va⟩ _ k.2, @get?_of_mem _ ⟨ka, vb⟩ _ k.2] at hk
    exact Option.some.inj hk
  rw [hv]

/-- No fields. -/
def empty : Fields α := ⟨.empty, fun k => absurd k.2 KeySet.not_mem_empty⟩

@[simp] theorem keys_empty : (empty : Fields α).keys = .empty := rfl

@[simp] theorem get?_empty {k : String} : (empty : Fields α).get? k = none := by simp

/-- One row for each of the given keys that holds something. -/
def rows (keys : KeySet) (f : {k // k ∈ keys} → Option α) : List (String × α) :=
  keys.members.filterMap fun k => (f k).map fun v => (k.1, v)

theorem mem_rows {keys : KeySet} {f : {k // k ∈ keys} → Option α} {row : String × α} :
    row ∈ rows keys f ↔ ∃ h : row.1 ∈ keys, f ⟨row.1, h⟩ = some row.2 := by
  simp only [rows, List.mem_filterMap, KeySet.mem_members, true_and, Option.map_eq_some_iff]
  constructor
  · rintro ⟨k, v, hv, rfl⟩
    exact ⟨k.2, hv⟩
  · rintro ⟨h, hv⟩
    exact ⟨⟨row.1, h⟩, row.2, hv, rfl⟩

theorem ascending_rows (keys : KeySet) (f : {k // k ∈ keys} → Option α) :
    ((rows keys f).map (·.1)).Pairwise (· < ·) := by
  rw [List.pairwise_map, rows, List.pairwise_filterMap]
  refine keys.ascending_members.imp fun {j k} hjk row hrow row' hrow' => ?_
  obtain ⟨_, _, rfl⟩ := Option.map_eq_some_iff.1 hrow
  obtain ⟨_, _, rfl⟩ := Option.map_eq_some_iff.1 hrow'
  exact hjk

theorem isSome_lookup_of_mem {rs : List (String × α)} {k : String} (h : k ∈ rs.map (·.1)) :
    (rs.lookup k).isSome = true := by
  induction rs with
  | nil => simp at h
  | cons row rs ih =>
    rw [List.lookup_cons]
    split
    · rfl
    · next hne => exact ih (by simpa [beq_eq_false_iff_ne.1 hne] using h)

theorem mem_of_lookup {rs : List (String × α)} {k : String} {v : α} (h : rs.lookup k = some v) :
    (k, v) ∈ rs := by
  induction rs with
  | nil => simp at h
  | cons row rs ih =>
    rw [List.lookup_cons] at h
    split at h
    · next hk =>
      obtain ⟨j, w⟩ := row
      rw [eq_of_beq hk, ← Option.some.inj h]
      exact List.mem_cons_self
    · exact List.mem_cons_of_mem _ (ih h)

/-- Those of the given keys that hold something, with what they hold. Each value is worked out
once. -/
def collect (keys : KeySet) (f : {k // k ∈ keys} → Option α) : Fields α :=
  let rs := rows keys f
  ⟨⟨rs.map (·.1), ascending_rows keys f⟩,
    fun k => (rs.lookup k.1).get (isSome_lookup_of_mem k.2)⟩

theorem get?_collect {keys : KeySet} {f : {k // k ∈ keys} → Option α} {k : String} :
    (collect keys f).get? k = if h : k ∈ keys then f ⟨k, h⟩ else none := by
  unfold get?
  split
  · next hk =>
    have hrow := mem_of_lookup (Option.some_get (isSome_lookup_of_mem hk)).symm
    obtain ⟨hmem, hv⟩ := mem_rows.1 hrow
    rw [dif_pos hmem, hv]
    rfl
  · next hk =>
    split
    · next hmem =>
      cases hv : f ⟨k, hmem⟩ with
      | none => rfl
      | some v =>
        have hin : k ∈ (collect keys f).keys := List.mem_map.2 ⟨(k, v), mem_rows.2 ⟨hmem, hv⟩, rfl⟩
        exact absurd hin hk
    · rfl

/-- The fields with one more, in place of any that had its key. -/
def insert (fs : Fields α) (k : String) (v : α) : Fields α :=
  collect (fs.keys.insert k) fun j => if j.1 = k then some v else fs.get? j.1

theorem get?_insert {fs : Fields α} {k j : String} {v : α} :
    (fs.insert k v).get? j = if j = k then some v else fs.get? j := by
  simp only [insert, get?_collect, KeySet.mem_insert]
  by_cases hj : j = k <;> by_cases hm : j ∈ fs.keys <;>
    simp [hj, hm, get?_eq_none_iff.2]

/-- The fields without one key. -/
def erase (fs : Fields α) (k : String) : Fields α :=
  collect fs.keys fun j => if j.1 = k then none else fs.get? j.1

theorem get?_erase {fs : Fields α} {k j : String} :
    (fs.erase k).get? j = if j = k then none else fs.get? j := by
  simp only [erase, get?_collect]
  by_cases hj : j = k <;> by_cases hm : j ∈ fs.keys <;>
    simp [hj, hm, get?_eq_none_iff.2]

/-- The fields listed, of which the last with a key counts. -/
def ofList (l : List (String × α)) : Fields α :=
  let latest := l.reverse
  collect (KeySet.ofList (l.map (·.1))) fun k => latest.lookup k.1

/-- The fields in the order of their keys. -/
def toList (fs : Fields α) : List (String × α) := fs.keys.members.map fun k => (k.1, fs.value k)

/-- The number of fields. -/
def size (fs : Fields α) : Nat := fs.keys.toList.length

/-- Whether there is no field. -/
def isEmpty (fs : Fields α) : Bool := fs.keys.isEmpty

end Fields

end ControlLoop
