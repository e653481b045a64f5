import ControlLoop.Proofs.Json.Walk

/-!
# Equality of what values denote

The test `==` compares objects field by field, holds of a value and itself, does
not depend on which value comes first, and tells objects and null from
everything else.
-/

set_option autoImplicit false

namespace ControlLoop

theorem Number.beq_refl (n : Number) : Number.beq n n = true := by
  cases n <;> simp [Number.beq, Binary64.Finite.beq]

theorem Number.beq_comm (m n : Number) : Number.beq m n = Number.beq n m := by
  cases m <;> cases n <;> simp [Number.beq, Binary64.Finite.beq, Bool.beq_comm, Bool.and_comm]

namespace Json

theorem alike_refl {same : Number → Number → Bool} (h : ∀ n, same n n = true) (value : Json) :
    value.alike same value = true := by
  induction value with
  | num n => exact h n
  | arr size item ih => simp [alike, ih]
  | obj keys value ih => simp [alike, ih]
  | _ => simp [alike]

theorem alike_comm {same : Number → Number → Bool} (h : ∀ m n, same m n = same n m) (a b : Json) :
    a.alike same b = b.alike same a := by
  induction a generalizing b with
  | num m =>
    cases b with
    | num n => exact h m n
    | _ => rfl
  | arr size item ih =>
    cases b with
    | arr size' item' =>
      by_cases hsize : size = size'
      · subst hsize
        simp [alike, ih]
      · simp [alike, hsize, Ne.symm hsize]
    | _ => rfl
  | obj keys value ih =>
    cases b with
    | obj keys' value' =>
      by_cases hkeys : keys = keys'
      · subst hkeys
        simp [alike, ih]
      · simp [alike, hkeys, Ne.symm hkeys]
    | _ => rfl
  | null => cases b <;> rfl
  | bool x => cases b <;> simp [alike, Bool.beq_comm]
  | str x => cases b <;> simp [alike, BEq.comm]

theorem beq_comm (a b : Json) : (a == b) = (b == a) := alike_comm Number.beq_comm a b

instance : ReflBEq Json := ⟨alike_refl Number.beq_refl _⟩

/-- Objects are equal if they hold equal values at every key, or nothing. -/
theorem object_beq_object_iff {a b : Fields Json} :
    (object a == object b) = true ↔ ∀ k, (a.get? k == b.get? k) = true := by
  obtain ⟨ks, f⟩ := a
  obtain ⟨js, g⟩ := b
  show alike Number.beq (.obj ks f) (.obj js g) = true ↔ _
  constructor
  · intro h k
    simp only [alike] at h
    split at h
    · next hkeys =>
      subst hkeys
      by_cases hk : k ∈ ks
      · rw [@Fields.get?_of_mem _ ⟨ks, f⟩ _ hk, @Fields.get?_of_mem _ ⟨ks, g⟩ _ hk]
        exact List.all_eq_true.1 h ⟨k, hk⟩ (KeySet.mem_members _)
      · rw [Fields.get?_eq_none_iff.2 hk, Fields.get?_eq_none_iff.2 hk]
        rfl
    · cases h
  · intro h
    have hkeys : ks = js := by
      ext k
      have hk := h k
      by_cases hks : k ∈ ks <;> by_cases hjs : k ∈ js <;>
        simp_all [Fields.get?]
    subst hkeys
    simp only [alike, ↓reduceDIte, List.all_eq_true]
    intro k _
    have hk := h k.1
    rw [@Fields.get?_of_mem _ ⟨ks, f⟩ _ k.2, @Fields.get?_of_mem _ ⟨ks, g⟩ _ k.2] at hk
    exact hk

theorem object_beq_leaf {value : Json} (h : value.isObject = false) (fs : Fields Json) :
    (object fs == value) = false := by
  cases value with
  | obj keys child => cases h
  | _ => rfl

theorem leaf_beq_object {value : Json} (h : value.isObject = false) (fs : Fields Json) :
    (value == object fs) = false := by
  cases value with
  | obj keys child => cases h
  | _ => rfl

theorem beq_null (value : Json) : (value == .null) = value.isNull := by
  cases value <;> rfl

theorem null_beq (value : Json) : (Json.null == value) = value.isNull := by
  cases value <;> rfl

end Json

end ControlLoop
