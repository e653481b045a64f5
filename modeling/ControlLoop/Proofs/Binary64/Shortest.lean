import ControlLoop.Proofs.Binary64.Rounding

/-!
# Shortest digits read back

The shortest decimal of a double is a point of the interval that rounds to the
double, and every double that is not zero has one. So the digits read back as
the double that they were written for.
-/

set_option autoImplicit false

namespace ControlLoop

namespace Binary64

theorem Tie.choose_eq_or (tie : Tie) (below : ℕ) :
    tie.choose below = below ∨ tie.choose below = below + 1 := by
  cases tie with
  | toEven =>
    have heven : below % 2 < 2 := Nat.mod_lt below two_pos
    show below + below % 2 = below ∨ below + below % 2 = below + 1
    omega
  | awayFromZero => exact Or.inr rfl

namespace RoundingInterval

variable {r : RoundingInterval} {tie : Tie} {k : ℤ}

/-- The unit of the interval, counted in shares of a common measure of both units. -/
def unitShare (r : RoundingInterval) (k : ℤ) : ℕ :=
  Nat.pow 2 r.exponent.toNat * Nat.pow 10 (-k).toNat

/-- The unit of the grid, counted in shares of a common measure of both units. -/
def gridShare (r : RoundingInterval) (k : ℤ) : ℕ :=
  Nat.pow 2 (-r.exponent).toNat * Nat.pow 10 k.toNat

theorem gridShare_pos (r : RoundingInterval) (k : ℤ) : 0 < r.gridShare k :=
  Nat.mul_pos (Nat.pow_pos (by decide)) (Nat.pow_pos (by decide))

theorem unitShare_mul (r : RoundingInterval) (k : ℤ) :
    (r.unitShare k : ℚ) * 10 ^ k = r.gridShare k * 2 ^ r.exponent := by
  have htwo := zpow_toNat 2 two_ne_zero r.exponent
  have hten := zpow_toNat 10 (by norm_num) k
  simp only [unitShare, gridShare, Nat.pow_eq]
  push_cast
  rw [htwo, hten]
  ring

/-- Shares measure points of the grid and of the interval alike. -/
theorem shares_mul (r : RoundingInterval) (k : ℤ) (u d : ℕ) :
    ((d * r.gridShare k : ℕ) - (u * r.unitShare k : ℕ) : ℚ) * 10 ^ k =
      r.gridShare k * (d * 10 ^ k - u * 2 ^ r.exponent) := by
  have hshare := unitShare_mul r k
  push_cast
  rw [sub_mul, mul_assoc (u : ℚ), hshare]
  ring

theorem unit_le_grid_iff (r : RoundingInterval) (k : ℤ) (u d : ℕ) :
    u * r.unitShare k ≤ d * r.gridShare k ↔ (u : ℚ) * 2 ^ r.exponent ≤ d * 10 ^ k := by
  have hpos : (0 : ℚ) < r.gridShare k := by exact_mod_cast r.gridShare_pos k
  have hten : (0 : ℚ) < 10 ^ k := by positivity
  rw [← Nat.cast_le (α := ℚ), ← sub_nonneg, ← mul_nonneg_iff_of_pos_right hten, shares_mul,
    mul_nonneg_iff_of_pos_left hpos, sub_nonneg]

theorem unit_lt_grid_iff (r : RoundingInterval) (k : ℤ) (u d : ℕ) :
    u * r.unitShare k < d * r.gridShare k ↔ (u : ℚ) * 2 ^ r.exponent < d * 10 ^ k := by
  have hpos : (0 : ℚ) < r.gridShare k := by exact_mod_cast r.gridShare_pos k
  have hten : (0 : ℚ) < 10 ^ k := by positivity
  rw [← Nat.cast_lt (α := ℚ), ← sub_pos, ← mul_pos_iff_of_pos_right hten, shares_mul,
    mul_pos_iff_of_pos_left hpos, sub_pos]

theorem grid_le_unit_iff (r : RoundingInterval) (k : ℤ) (u d : ℕ) :
    d * r.gridShare k ≤ u * r.unitShare k ↔ (d : ℚ) * 10 ^ k ≤ u * 2 ^ r.exponent := by
  rw [← not_lt, unit_lt_grid_iff, not_lt]

theorem grid_lt_unit_iff (r : RoundingInterval) (k : ℤ) (u d : ℕ) :
    d * r.gridShare k < u * r.unitShare k ↔ (d : ℚ) * 10 ^ k < u * 2 ^ r.exponent := by
  rw [← not_le, unit_le_grid_iff, not_le]

/-- Whether a point of a grid is in the interval, as the search for a grid point asks it. -/
def inside (r : RoundingInterval) (k : ℤ) (d : ℕ) : Bool :=
  if r.closed then
    r.low * r.unitShare k ≤ d * r.gridShare k && d * r.gridShare k ≤ r.high * r.unitShare k
  else r.low * r.unitShare k < d * r.gridShare k && d * r.gridShare k < r.high * r.unitShare k

theorem inside_iff {d : ℕ} : r.inside k d = true ↔ r.Contains (d * 10 ^ k) := by
  unfold inside Contains
  split
  · rw [Bool.and_eq_true, decide_eq_true_iff, decide_eq_true_iff, unit_le_grid_iff,
      grid_le_unit_iff]
  · rw [Bool.and_eq_true, decide_eq_true_iff, decide_eq_true_iff, unit_lt_grid_iff,
      grid_lt_unit_iff]

/-- The point of a grid that follows the centre. -/
def pointAbove (r : RoundingInterval) (k : ℤ) : ℕ := r.centre * r.unitShare k / r.gridShare k + 1

/-- Of the two neighbours of the centre on a grid one is tried first and the other then. -/
theorem gridPoint?_eq (r : RoundingInterval) (tie : Tie) (k : ℤ) :
    ∃ first second : ℕ, (first = r.pointAbove k ∨ second = r.pointAbove k) ∧
      r.gridPoint? tie k =
        if r.inside k first then some first
        else if r.inside k second then some second
        else none := by
  have hother : ∀ below first : ℕ, first = below ∨ first = below + 1 →
      first = below + 1 ∨ 2 * below + 1 - first = below + 1 := by omega
  refine ⟨_, _, hother _ _ ?_, rfl⟩
  split
  · exact Or.inl rfl
  · split
    · exact Or.inr rfl
    · exact tie.choose_eq_or _

/-- What is taken from a grid lies in the interval. -/
theorem contains_of_gridPoint? {d : ℕ} (h : r.gridPoint? tie k = some d) :
    r.Contains (d * 10 ^ k) := by
  obtain ⟨first, second, -, heq⟩ := gridPoint?_eq r tie k
  rw [heq] at h
  split at h
  · next hfirst => exact inside_iff.1 (Option.some.inj h ▸ hfirst)
  · split at h
    · next hsecond => exact inside_iff.1 (Option.some.inj h ▸ hsecond)
    · cases h

/-- Something is taken from a grid if the point that follows the centre lies in the interval. -/
theorem isSome_gridPoint? (h : r.Contains (r.pointAbove k * 10 ^ k)) :
    (r.gridPoint? tie k).isSome = true := by
  obtain ⟨first, second, habove, heq⟩ := gridPoint?_eq r tie k
  have hinside := inside_iff.2 h
  rw [heq]
  rcases habove with habove | habove
  · rw [habove, hinside]
    rfl
  · rw [habove, hinside]
    split <;> rfl

/-- The point that follows the centre is above it, by no more than the unit of the grid. -/
theorem pointAbove_bounds (r : RoundingInterval) (k : ℤ) :
    (r.centre : ℚ) * 2 ^ r.exponent < r.pointAbove k * 10 ^ k ∧
      (r.pointAbove k : ℚ) * 10 ^ k ≤ r.centre * 2 ^ r.exponent + 10 ^ k := by
  constructor
  · rw [← unit_lt_grid_iff]
    exact (Nat.div_lt_iff_lt_mul (r.gridShare_pos k)).1 (Nat.lt_succ_self _)
  · have hbelow := (grid_le_unit_iff r k r.centre _).1 (Nat.div_mul_le_self _ (r.gridShare k))
    rw [pointAbove, Nat.cast_succ, add_one_mul]
    linarith

end RoundingInterval

namespace Finite

variable {x : Finite}

/-- A grid whose unit is less than half the last place has a point in the interval. -/
theorem contains_pointAbove {k : ℤ} (hk : (10 : ℚ) ^ k < 2 ^ (x.exponent - 1)) :
    x.interval.Contains (x.interval.pointAbove k * 10 ^ k) := by
  obtain ⟨hlow, hhigh⟩ := x.interval.pointAbove_bounds k
  have hunit : (0 : ℚ) < 2 ^ x.interval.exponent := by positivity
  have hhalf : (2 : ℚ) ^ (x.exponent - 1) = 2 * 2 ^ x.interval.exponent := by
    rw [← zpow_one_add₀ two_ne_zero]
    congr 1
    show x.exponent - 1 = 1 + (x.exponent - 2)
    omega
  have hlow_le : (x.interval.low : ℚ) ≤ x.interval.centre := by
    exact_mod_cast Nat.sub_le (4 * x.significand) _
  have hhigh_eq : (x.interval.high : ℚ) = x.interval.centre + 2 := by
    exact_mod_cast (rfl : x.interval.high = x.interval.centre + 2)
  have habove : (x.interval.low : ℚ) * 2 ^ x.interval.exponent <
      x.interval.pointAbove k * 10 ^ k :=
    (mul_le_mul_of_nonneg_right hlow_le hunit.le).trans_lt hlow
  have hbelow : (x.interval.pointAbove k : ℚ) * 10 ^ k <
      x.interval.high * 2 ^ x.interval.exponent := by
    rw [hhigh_eq, add_mul, ← hhalf]
    linarith
  unfold RoundingInterval.Contains
  split
  · exact ⟨habove.le, hbelow.le⟩
  · exact ⟨habove, hbelow⟩

theorem ten_pow_le_two_pow (n : ℕ) : 10 ^ n ≤ 2 ^ (10 * ((n + 2) / 3)) := by
  calc 10 ^ n ≤ 10 ^ (3 * ((n + 2) / 3)) := Nat.pow_le_pow_right (by decide) (by omega)
    _ = (10 ^ 3) ^ ((n + 2) / 3) := pow_mul 10 3 _
    _ ≤ (2 ^ 10) ^ ((n + 2) / 3) := Nat.pow_le_pow_left (by decide) _
    _ = 2 ^ (10 * ((n + 2) / 3)) := (pow_mul 2 10 _).symm

theorem two_pow_le_ten_pow (n : ℕ) : 2 ^ (33 * (n / 10) + 3 * (n % 10)) ≤ 10 ^ n := by
  calc 2 ^ (33 * (n / 10) + 3 * (n % 10)) = (2 ^ 33) ^ (n / 10) * (2 ^ 3) ^ (n % 10) := by
        rw [pow_add, pow_mul, pow_mul]
    _ ≤ (10 ^ 10) ^ (n / 10) * 10 ^ (n % 10) :=
        Nat.mul_le_mul (Nat.pow_le_pow_left (by decide) _) (Nat.pow_le_pow_left (by decide) _)
    _ = 10 ^ n := by rw [← pow_mul, ← pow_add, Nat.div_add_mod]

theorem log2_significand_le (x : Finite) : x.significand.log2 ≤ 52 := by
  rcases eq_or_ne x.significand 0 with h | h
  · rw [h]
    decide
  · exact Nat.lt_succ_iff.1 ((Nat.log2_lt h).2 x.canonical.1)

/-- The finest grid that is tried has a unit of less than half the last place. -/
theorem finest_lt (x : Finite) : (10 : ℚ) ^ (x.leadingPower - 22) < 2 ^ (x.exponent - 1) := by
  obtain ⟨k, hk⟩ : ∃ k, k = x.leadingPower - 22 := ⟨_, rfl⟩
  have hlog := x.log2_significand_le
  obtain ⟨-, hleast, hgreatest, -⟩ := x.canonical
  have hestimate : k = ((x.significand.log2 : ℤ) + x.exponent) * 1233 / 4096 + 1 - 22 := hk
  rw [← hk]
  rcases le_total 0 k with hpos | hneg
  · obtain ⟨n, rfl⟩ := Int.eq_ofNat_of_zero_le hpos
    have hten : (10 : ℚ) ^ n ≤ 2 ^ (10 * ((n + 2) / 3)) := by exact_mod_cast ten_pow_le_two_pow n
    rw [zpow_natCast]
    refine hten.trans_lt ?_
    rw [← zpow_natCast]
    exact zpow_lt_zpow_right₀ one_lt_two (by push_cast; omega)
  · obtain ⟨n, hn⟩ := Int.eq_ofNat_of_zero_le (by omega : 0 ≤ -k)
    have hten : (2 : ℚ) ^ (33 * (n / 10) + 3 * (n % 10)) ≤ 10 ^ n := by
      exact_mod_cast two_pow_le_ten_pow n
    have htwo : (2 : ℚ) ^ (-(x.exponent - 1)) < 10 ^ (-k) := by
      rw [hn, zpow_natCast]
      refine lt_of_lt_of_le ?_ hten
      rw [← zpow_natCast]
      exact zpow_lt_zpow_right₀ one_lt_two (by push_cast; omega)
    rwa [zpow_neg, zpow_neg, inv_lt_inv₀ (by positivity) (by positivity)] at htwo

/-- The decimal taken from the grid that is tried after `i` others. -/
def candidate (x : Finite) (tie : Tie) (i : ℕ) : Option Decimal :=
  let k := x.leadingPower + 1 - i
  (x.interval.gridPoint? tie k).map fun d => ⟨d, k⟩

theorem shortest_eq (hx : x.isZero = false) (tie : Tie) :
    x.shortest tie = ((List.range 24).findSome? (x.candidate tie)).getD ⟨0, 0⟩ := by
  simp only [shortest, hx, Bool.false_eq_true, ↓reduceIte]
  rfl

/-- On one of the grids there is a point. -/
theorem isSome_candidate (x : Finite) (tie : Tie) :
    ((List.range 24).findSome? (x.candidate tie)).isSome = true := by
  refine List.findSome?_isSome_iff.2 ⟨23, by decide, ?_⟩
  have hfinest : x.leadingPower + 1 - (23 : ℕ) = x.leadingPower - 22 := by push_cast; omega
  rw [candidate, Option.isSome_map, hfinest]
  exact RoundingInterval.isSome_gridPoint? (contains_pointAbove x.finest_lt)

/-- The shortest decimal of a double that is not zero lies in its interval. -/
theorem contains_shortest (hx : x.isZero = false) (tie : Tie) :
    x.interval.Contains ((x.shortest tie).digits * 10 ^ (x.shortest tie).exponent) := by
  obtain ⟨decimal, hdecimal⟩ := Option.isSome_iff_exists.1 (x.isSome_candidate tie)
  obtain ⟨i, -, hi⟩ := List.exists_of_findSome?_eq_some hdecimal
  obtain ⟨d, hd, hpoint⟩ := Option.map_eq_some_iff.1 hi
  rw [shortest_eq hx, hdecimal, Option.getD_some, ← hpoint]
  exact RoundingInterval.contains_of_gridPoint? hd

/-- The interval of a double that is not zero is within the range of the format. -/
theorem bounds_of_contains (hx : x.isZero = false) {v : ℚ} (h : x.interval.Contains v) :
    (2 : ℚ) ^ (-1075 : ℤ) ≤ v ∧ v < 2 ^ (1024 : ℤ) := by
  obtain ⟨hlow, hhigh⟩ := abs_le.1 (near_of_contains hx h).1
  obtain ⟨hsignificand, hleast, hgreatest, -⟩ := x.canonical
  have hunit : (0 : ℚ) < 2 ^ x.exponent := by positivity
  have hone : (1 : ℚ) ≤ x.significand := by exact_mod_cast one_le_significand hx
  have hmax : (x.significand : ℚ) + 1 ≤ 2 ^ 53 := by exact_mod_cast hsignificand
  constructor
  · calc (2 : ℚ) ^ (-1075 : ℤ) = 2 ^ (-1 + -1074 : ℤ) := rfl
      _ = 1 / 2 * 2 ^ (-1074 : ℤ) := by rw [zpow_add₀ two_ne_zero, zpow_neg_one, one_div]
      _ ≤ 1 / 2 * 2 ^ x.exponent := by gcongr; exact one_le_two
      _ ≤ v := by
        rw [← le_div_iff₀ hunit]
        linarith
  · calc v < 2 ^ 53 * 2 ^ x.exponent := by
          rw [← div_lt_iff₀ hunit]
          linarith
      _ ≤ 2 ^ 53 * 2 ^ (971 : ℤ) := by gcongr; exact one_le_two
      _ = 2 ^ (53 + 971 : ℤ) := by rw [zpow_add₀ two_ne_zero]; rfl

/-- A number has a decimal digit for four binary ones, and a binary digit for three decimal ones. -/
theorem ten_pow_le_of_log2 {n : ℕ} (h : n ≠ 0) : 10 ^ (n.log2 / 4) ≤ n := by
  calc 10 ^ (n.log2 / 4) ≤ (2 ^ 4) ^ (n.log2 / 4) := Nat.pow_le_pow_left (by decide) _
    _ = 2 ^ (4 * (n.log2 / 4)) := (pow_mul 2 4 _).symm
    _ ≤ 2 ^ n.log2 := Nat.pow_le_pow_right (by decide) (Nat.mul_div_le _ _)
    _ ≤ n := Nat.log2_self_le h

theorem lt_ten_pow_of_log2 (n : ℕ) : n < 10 ^ (n.log2 / 3 + 1) := by
  calc n < 2 ^ (n.log2 + 1) := Nat.lt_log2_self
    _ ≤ 2 ^ (3 * (n.log2 / 3 + 1)) := Nat.pow_le_pow_right (by decide) (by omega)
    _ = (2 ^ 3) ^ (n.log2 / 3 + 1) := pow_mul 2 3 _
    _ ≤ 10 ^ (n.log2 / 3 + 1) := Nat.pow_le_pow_left (by decide) _

theorem two_zpow_lt_ten_pow {m : ℤ} {n : ℕ} (h : m < 3 * n) : (2 : ℚ) ^ m < 10 ^ n := by
  calc (2 : ℚ) ^ m < 2 ^ (3 * n : ℤ) := zpow_lt_zpow_right₀ one_lt_two h
    _ = (2 ^ 3) ^ n := by rw [zpow_mul, zpow_natCast]; rfl
    _ ≤ 10 ^ n := by gcongr; norm_num

/-- A decimal below the range's upper end is not taken for an overflow. -/
theorem exponent_le_of_lt {digits : ℕ} {exponent : ℤ} (hdigits : digits ≠ 0)
    (h : (digits : ℚ) * 10 ^ exponent < 2 ^ (1024 : ℤ)) :
    (digits.log2 : ℤ) / 4 + exponent ≤ 400 := by
  by_contra! hover
  have hpow : (10 : ℚ) ^ (digits.log2 / 4) ≤ digits := by
    exact_mod_cast ten_pow_le_of_log2 hdigits
  have hge : (10 : ℚ) ^ (401 : ℕ) ≤ digits * 10 ^ exponent := by
    calc (10 : ℚ) ^ (401 : ℕ) = 10 ^ ((401 : ℕ) : ℤ) := (zpow_natCast 10 401).symm
      _ ≤ 10 ^ (((digits.log2 / 4 : ℕ) : ℤ) + exponent) :=
        zpow_le_zpow_right₀ (by norm_num) (by push_cast; omega)
      _ = 10 ^ (digits.log2 / 4) * 10 ^ exponent := by
        rw [zpow_add₀ (by norm_num), zpow_natCast]
      _ ≤ digits * 10 ^ exponent := by gcongr
  exact absurd (hge.trans_lt h) (two_zpow_lt_ten_pow (by norm_num)).not_gt

/-- A decimal above the range's lower end is not taken for an underflow. -/
theorem le_exponent_of_le {digits : ℕ} {exponent : ℤ}
    (h : (2 : ℚ) ^ (-1075 : ℤ) ≤ digits * 10 ^ exponent) :
    -400 ≤ (digits.log2 : ℤ) / 3 + exponent := by
  by_contra! hunder
  have hpow : (digits : ℚ) < 10 ^ (digits.log2 / 3 + 1) := by
    exact_mod_cast lt_ten_pow_of_log2 digits
  have hlt : (digits : ℚ) * 10 ^ exponent < (10 ^ (400 : ℕ))⁻¹ := by
    calc (digits : ℚ) * 10 ^ exponent < 10 ^ (digits.log2 / 3 + 1) * 10 ^ exponent := by gcongr
      _ = 10 ^ (((digits.log2 / 3 + 1 : ℕ) : ℤ) + exponent) := by
        rw [zpow_add₀ (by norm_num), zpow_natCast]
      _ ≤ 10 ^ (-((400 : ℕ) : ℤ)) := zpow_le_zpow_right₀ (by norm_num) (by push_cast; omega)
      _ = (10 ^ (400 : ℕ))⁻¹ := by rw [zpow_neg, zpow_natCast]
  have htiny : ((10 : ℚ) ^ (400 : ℕ))⁻¹ < 2 ^ (-1075 : ℤ) := by
    rw [zpow_neg]
    exact inv_strictAnti₀ (by positivity) (two_zpow_lt_ten_pow (by norm_num))
  exact absurd (h.trans_lt hlt) htiny.not_gt

/-- A decimal in the interval of a double is read as the double. -/
theorem ofDecimal_of_contains (hx : x.isZero = false) {digits : ℕ} {exponent : ℤ}
    (h : x.interval.Contains (digits * 10 ^ exponent)) :
    ofDecimal x.negative digits exponent = .finite x := by
  obtain ⟨hlow, hhigh⟩ := bounds_of_contains hx h
  have hdigits : digits ≠ 0 := by
    rintro rfl
    rw [Nat.cast_zero, zero_mul] at hlow
    exact absurd hlow (by norm_num)
  have hfits := (exponent_le_of_lt hdigits hhigh).not_gt
  have hlarge := (le_exponent_of_le hlow).not_gt
  simp only [ofDecimal, hdigits, hfits, hlarge, ↓reduceIte]
  -- the power of ten multiplies the digits or divides them, by the sign of the exponent
  split
  · next hexponent =>
    refine ofRatio_of_contains hx one_ne_zero ?_
    have hpow : (10 : ℚ) ^ exponent.toNat = 10 ^ exponent := by
      rw [← zpow_natCast, Int.toNat_of_nonneg hexponent]
    rw [Nat.pow_eq]
    push_cast
    rwa [div_one, hpow]
  · next hexponent =>
    refine ofRatio_of_contains hx (by rw [Nat.pow_eq]; positivity) ?_
    have hpow : (10 : ℚ) ^ (-exponent).toNat = (10 ^ exponent)⁻¹ := by
      rw [← zpow_natCast, Int.toNat_of_nonneg (by omega), zpow_neg]
    rw [Nat.pow_eq]
    push_cast
    rwa [hpow, div_inv_eq_mul]

end Finite

end Binary64

end ControlLoop
