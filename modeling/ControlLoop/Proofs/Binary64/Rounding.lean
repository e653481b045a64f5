import Mathlib
import ControlLoop.Binary64.Shortest

/-!
# Rounding to a double

A quotient is rounded in the binade that it lies in: the one exponent at which
it has 53 binary digits, or the least exponent. Every quotient in the rounding
interval of a double rounds to this double, also where the interval of a power
of two reaches down into the next binade.
-/

set_option autoImplicit false

namespace ControlLoop

/-- A quotient is a whole number and a part of one. The remainder tells how the part compares with
the half. -/
theorem exists_part (num : ℕ) {den : ℕ} (hden : 0 < den) : ∃ t : ℚ,
    (num : ℚ) / den = (num / den : ℕ) + t ∧ 0 ≤ t ∧ t < 1 ∧
      (2 * (num % den) < den ↔ t < 1 / 2) ∧ (den < 2 * (num % den) ↔ 1 / 2 < t) := by
  have hdenQ : (0 : ℚ) < den := by exact_mod_cast hden
  obtain ⟨t, ht⟩ : ∃ t : ℚ, t * den = (num % den : ℕ) := ⟨_, div_mul_cancel₀ _ hdenQ.ne'⟩
  refine ⟨t, ?_, nonneg_of_mul_nonneg_left (by rw [ht]; positivity) hdenQ, ?_, ?_, ?_⟩
  · rw [div_eq_iff hdenQ.ne', add_mul, ht]
    exact_mod_cast (Nat.div_add_mod' num den).symm
  · refine lt_of_mul_lt_mul_right ?_ hdenQ.le
    rw [ht, one_mul]
    exact_mod_cast Nat.mod_lt num hden
  · rw [← mul_lt_mul_iff_of_pos_right hdenQ, ht, ← Nat.cast_lt (α := ℚ)]
    push_cast
    constructor <;> intro h <;> linarith
  · rw [← mul_lt_mul_iff_of_pos_right hdenQ, ht, ← Nat.cast_lt (α := ℚ)]
    push_cast
    constructor <;> intro h <;> linarith

/-- The whole number at a distance of a half at most is the one that is rounded to, if it is even
where the distance is a half. -/
theorem roundHalfEven_eq {num den m : ℕ} (hden : 0 < den)
    (hnear : |(num : ℚ) / den - m| ≤ 1 / 2)
    (heven : |(num : ℚ) / den - m| = 1 / 2 → m % 2 = 0) : roundHalfEven num den = m := by
  obtain ⟨t, hsplit, hpos, hone, hhalf, hover⟩ := exists_part num hden
  rw [hsplit] at hnear heven
  obtain ⟨hlow, hhigh⟩ := abs_le.1 hnear
  have hm : m = num / den ∨ m = num / den + 1 := by
    have h1 : ((num / den : ℕ) : ℚ) < m + 1 := by linarith
    have h2 : (m : ℚ) < (num / den : ℕ) + 2 := by linarith
    norm_cast at h1 h2
    omega
  simp only [roundHalfEven, hhalf, hover]
  rcases hm with hm | hm
  · have hcast : (m : ℚ) = (num / den : ℕ) := by rw [hm]
    rw [if_neg (by linarith : ¬ 1 / 2 < t)]
    split
    · exact hm.symm
    · have hmid : m % 2 = 0 := heven (by rw [hcast, abs_of_nonneg (by linarith)]; linarith)
      omega
  · have hcast : (m : ℚ) = (num / den : ℕ) + 1 := by exact_mod_cast hm
    rw [if_neg (by linarith : ¬ t < 1 / 2)]
    split
    · exact hm.symm
    · have hmid : m % 2 = 0 := heven (by rw [hcast, abs_of_nonpos (by linarith)]; linarith)
      omega

namespace Binary64

/-- The exponent at which a magnitude has 53 binary digits, or the least exponent. -/
structure InBinade (v : ℚ) (e : ℤ) : Prop where
  least : -1074 ≤ e
  below : v < 2 ^ 53 * 2 ^ e
  reached : e = -1074 ∨ 2 ^ 52 * 2 ^ e ≤ v

theorem InBinade.le {v : ℚ} {e e' : ℤ} (h : InBinade v e) (h' : InBinade v e') : e ≤ e' := by
  by_contra hlt
  rcases h.reached with he | hreached
  · have := h'.least
    omega
  · have hpow : (2 : ℚ) ^ (e' + 1) ≤ 2 ^ e := zpow_le_zpow_right₀ (by norm_num) (by omega)
    have hbelow := h'.below
    rw [zpow_add_one₀ (by norm_num)] at hpow
    linarith

theorem InBinade.unique {v : ℚ} {e e' : ℤ} (h : InBinade v e) (h' : InBinade v e') : e = e' :=
  le_antisymm (h.le h') (h'.le h)

section Ratio

variable {num den : Nat}

theorem zpow_toNat (b : ℚ) (hb : b ≠ 0) (e : ℤ) : b ^ e.toNat = b ^ e * b ^ (-e).toNat := by
  rcases le_total 0 e with he | he
  · rw [Int.toNat_of_nonpos (by omega : -e ≤ 0), pow_zero, mul_one, ← zpow_natCast,
      Int.toNat_of_nonneg he]
  · rw [Int.toNat_of_nonpos he, ← zpow_natCast b (-e).toNat, Int.toNat_of_nonneg (by omega),
      ← zpow_add₀ hb]
    simp

theorem overPower_pos (num : ℕ) (hden : 0 < den) (e : ℤ) : 0 < (overPower num den e).2 := by
  unfold overPower
  split
  · exact Nat.mul_pos hden (Nat.pow_pos (by decide))
  · exact hden

/-- A quotient over a power of two. -/
theorem overPower_div (num den : Nat) (e : ℤ) :
    ((overPower num den e).1 : ℚ) / (overPower num den e).2 = num / den / 2 ^ e := by
  unfold overPower
  split
  · next he =>
    lift e to ℕ using he
    rw [Nat.pow_eq, Int.toNat_natCast, zpow_natCast]
    push_cast
    exact div_mul_eq_div_div _ _ _
  · next he =>
    have hpow : (2 : ℚ) ^ (-e).toNat = (2 ^ e)⁻¹ := by
      rw [← zpow_natCast, Int.toNat_of_nonneg (by omega), zpow_neg]
    rw [Nat.pow_eq]
    push_cast
    rw [hpow, div_eq_mul_inv, div_eq_mul_inv, div_eq_mul_inv, mul_right_comm]

theorem two_zpow_mul_pow {a : ℤ} {b c : ℕ} (h : a + b = c) : (2 : ℚ) ^ a * 2 ^ b = 2 ^ c := by
  rw [← zpow_natCast, ← zpow_natCast, ← zpow_add₀ two_ne_zero, h]

/-- The binary digits of a quotient are told up to one by those of its parts. -/
theorem ratio_bounds (hnum : num ≠ 0) (hden : den ≠ 0) :
    (2 : ℚ) ^ ((num.log2 : ℤ) - den.log2 - 1) ≤ num / den ∧
      (num : ℚ) / den < 2 ^ ((num.log2 : ℤ) - den.log2 + 1) := by
  have hdenQ : (0 : ℚ) < den := by exact_mod_cast Nat.pos_of_ne_zero hden
  have hnlow : (2 : ℚ) ^ num.log2 ≤ num := by exact_mod_cast Nat.log2_self_le hnum
  have hnhigh : (num : ℚ) < 2 ^ (num.log2 + 1) := by exact_mod_cast Nat.lt_log2_self
  have hdlow : (2 : ℚ) ^ den.log2 ≤ den := by exact_mod_cast Nat.log2_self_le hden
  have hdhigh : (den : ℚ) < 2 ^ (den.log2 + 1) := by exact_mod_cast Nat.lt_log2_self
  constructor
  · rw [le_div_iff₀ hdenQ]
    calc (2 : ℚ) ^ ((num.log2 : ℤ) - den.log2 - 1) * den
        ≤ 2 ^ ((num.log2 : ℤ) - den.log2 - 1) * 2 ^ (den.log2 + 1) := by gcongr
      _ = 2 ^ num.log2 := two_zpow_mul_pow (by push_cast; omega)
      _ ≤ num := hnlow
  · rw [div_lt_iff₀ hdenQ]
    calc (num : ℚ) < 2 ^ (num.log2 + 1) := hnhigh
      _ = 2 ^ ((num.log2 : ℤ) - den.log2 + 1) * 2 ^ den.log2 :=
        (two_zpow_mul_pow (by push_cast; omega)).symm
      _ ≤ 2 ^ ((num.log2 : ℤ) - den.log2 + 1) * den := by gcongr

/-- The binade of a quotient of positive numbers. -/
theorem inBinade_binadeOf (hnum : num ≠ 0) (hden : den ≠ 0) :
    InBinade (num / den) (binadeOf num den) := by
  obtain ⟨hlow, hhigh⟩ := ratio_bounds hnum hden
  obtain ⟨low, hdef⟩ : ∃ low, low = max ((num.log2 : ℤ) - den.log2 - 53) (-1074) := ⟨_, rfl⟩
  have hfits : (overPower num den low).1 / (overPower num den low).2 < Nat.pow 2 53 ↔
      (num : ℚ) / den < 2 ^ 53 * 2 ^ low := by
    have hpos := overPower_pos num (Nat.pos_of_ne_zero hden) low
    rw [Nat.div_lt_iff_lt_mul hpos, ← div_lt_iff₀ (by positivity), ← overPower_div,
      div_lt_iff₀ (by exact_mod_cast hpos)]
    norm_cast
  unfold binadeOf
  simp only [← hdef, hfits]
  split
  · next hbelow =>
    refine ⟨by omega, hbelow, ?_⟩
    rcases max_cases ((num.log2 : ℤ) - den.log2 - 53) (-1074) with ⟨hmax, -⟩ | ⟨hmax, -⟩
    · right
      rw [← zpow_natCast, ← zpow_add₀ two_ne_zero]
      refine le_of_eq_of_le ?_ hlow
      congr 1
      push_cast
      omega
    · left
      omega
  · next hover =>
    refine ⟨by omega, ?_, Or.inr ?_⟩
    · refine hhigh.trans_le ?_
      rw [← zpow_natCast, ← zpow_add₀ two_ne_zero]
      refine zpow_le_zpow_right₀ one_le_two ?_
      push_cast
      omega
    · rw [zpow_add_one₀ two_ne_zero]
      linarith

end Ratio

/-- The magnitude lies in the interval, whose ends count if it is closed. -/
def RoundingInterval.Contains (r : RoundingInterval) (v : ℚ) : Prop :=
  if r.closed then r.low * 2 ^ r.exponent ≤ v ∧ v ≤ r.high * 2 ^ r.exponent
  else r.low * 2 ^ r.exponent < v ∧ v < r.high * 2 ^ r.exponent

namespace Finite

variable {x : Finite} {v : ℚ}

theorem one_le_significand (hx : x.isZero = false) : 1 ≤ x.significand := by
  simpa [isZero, Nat.one_le_iff_ne_zero] using hx

/-- What a magnitude in the interval of a double is in units of its last place: it is at most a half
away, less than that from an odd significand, and less than a power of two by a quarter at most. -/
theorem near_of_contains (hx : x.isZero = false) (h : x.interval.Contains v) :
    |v / 2 ^ x.exponent - x.significand| ≤ 1 / 2 ∧
      (|v / 2 ^ x.exponent - x.significand| = 1 / 2 → x.significand % 2 = 0) ∧
      (x.significand = 2 ^ 52 → -1074 < x.exponent →
        (x.significand : ℚ) - 1 / 4 ≤ v / 2 ^ x.exponent) := by
  have hunit : (0 : ℚ) < 2 ^ x.exponent := by positivity
  have hquarter : (2 : ℚ) ^ (x.exponent - 2) = 2 ^ x.exponent / 4 := by
    rw [zpow_sub₀ two_ne_zero]
    norm_num
  obtain ⟨w, hw⟩ : ∃ w : ℚ, v = w * 2 ^ x.exponent := ⟨_, (div_mul_cancel₀ v hunit.ne').symm⟩
  obtain ⟨gap, hgap⟩ : ∃ gap : ℕ, gap =
      if x.significand = Nat.pow 2 52 ∧ -1074 < x.exponent then 1 else 2 := ⟨_, rfl⟩
  have hgap_le : gap ≤ 2 := by rw [hgap]; split <;> decide
  have hone := one_le_significand hx
  have hlow : ((4 * x.significand - gap : ℕ) : ℚ) = 4 * x.significand - gap := by
    rw [Nat.cast_sub (by omega)]
    push_cast
    ring
  have hgapQ : (gap : ℚ) ≤ 2 := by exact_mod_cast hgap_le
  have hscale : ∀ a : ℚ, a * (2 ^ x.exponent / 4) = a / 4 * 2 ^ x.exponent := fun a => by ring
  rw [hw, mul_div_cancel_right₀ _ hunit.ne']
  simp only [RoundingInterval.Contains, interval, hquarter, hw, ← hgap, hlow, hscale,
    mul_le_mul_iff_of_pos_right hunit, mul_lt_mul_iff_of_pos_right hunit, decide_eq_true_eq,
    Nat.cast_add, Nat.cast_mul, Nat.cast_ofNat] at h
  split at h
  · next heven =>
    refine ⟨abs_le.2 ⟨by linarith, by linarith⟩, fun _ => heven, fun hpow he => ?_⟩
    have hgap_one : gap = 1 := hgap.trans (if_pos ⟨hpow, he⟩)
    rw [hgap_one, Nat.cast_one] at h
    linarith
  · next hodd =>
    have hstrict : |w - x.significand| < 1 / 2 := abs_lt.2 ⟨by linarith, by linarith⟩
    refine ⟨hstrict.le, fun htie => absurd htie hstrict.ne, fun hpow _ => ?_⟩
    exact absurd (by rw [hpow]; rfl) hodd

theorem ofParts_self (x : Finite) : ofParts x.negative x.significand x.exponent = .finite x := by
  have hne : x.significand ≠ Nat.pow 2 53 := x.canonical.1.ne
  simp only [ofParts, hne, ↓reduceIte, x.canonical, ↓reduceDIte]

/-- A significand that is rounded up to `2 ^ 53` is that of the next power of two. -/
theorem ofParts_carry (hx : x.significand = Nat.pow 2 52) :
    ofParts x.negative (Nat.pow 2 53) (x.exponent - 1) = .finite x := by
  obtain ⟨negative, significand, exponent, canonical⟩ := x
  subst hx
  have he : exponent - 1 + 1 = exponent := by omega
  simp only [ofParts, ↓reduceIte, he, canonical, ↓reduceDIte]

/-- A quotient rounds to the nearest significand in its binade, where the even one counts as the
nearer of two. -/
theorem ofRatio_eq_ofParts {num den : ℕ} (hnum : num ≠ 0) (hden : den ≠ 0) {e : ℤ}
    (he : InBinade (num / den) e) {m : ℕ} (hnear : |(num : ℚ) / den / 2 ^ e - m| ≤ 1 / 2)
    (heven : |(num : ℚ) / den / 2 ^ e - m| = 1 / 2 → m % 2 = 0) (negative : Bool) :
    ofRatio negative num den = ofParts negative m e := by
  obtain rfl := (inBinade_binadeOf hnum hden).unique he
  rw [← overPower_div] at hnear heven
  have hpos := overPower_pos num (Nat.pos_of_ne_zero hden) (binadeOf num den)
  simp only [ofRatio, hnum, ↓reduceIte, roundHalfEven_eq hpos hnear heven]

/-- Just below a power of two, in the binade before it, a quotient rounds up to the power. -/
theorem ofRatio_of_below_power (hx : x.significand = Nat.pow 2 52) (hexp : -1074 < x.exponent)
    {num den : ℕ} (hnum : num ≠ 0) (hden : den ≠ 0)
    (hquarter : (2 : ℚ) ^ 52 - 1 / 4 ≤ num / den / 2 ^ x.exponent)
    (hlt : (num : ℚ) / den / 2 ^ x.exponent < 2 ^ 52) :
    ofRatio x.negative num den = .finite x := by
  have hunit : (0 : ℚ) < 2 ^ x.exponent := by positivity
  have hhalf : (2 : ℚ) ^ (x.exponent - 1) = 2 ^ x.exponent / 2 := zpow_sub_one₀ two_ne_zero _
  have hdouble : (num : ℚ) / den / 2 ^ (x.exponent - 1) = 2 * (num / den / 2 ^ x.exponent) := by
    rw [hhalf]
    field_simp
  have hleast := x.canonical.2.1
  have hbinade : InBinade (num / den) (x.exponent - 1) := by
    refine ⟨by omega, ?_, Or.inr ?_⟩
    · rw [← div_lt_iff₀ (by positivity), hdouble]
      linarith
    · rw [← le_div_iff₀ (by positivity), hdouble]
      linarith
  have hcarry : |(num : ℚ) / den / 2 ^ (x.exponent - 1) - (2 ^ 53 : ℕ)| ≤ 1 / 2 := by
    rw [hdouble]
    push_cast
    exact abs_le.2 ⟨by linarith, by linarith⟩
  rw [ofRatio_eq_ofParts hnum hden hbinade hcarry fun _ => by decide]
  exact ofParts_carry hx

/-- A quotient in the interval of a double rounds to the double. -/
theorem ofRatio_of_contains (hx : x.isZero = false) {num den : ℕ} (hden : den ≠ 0)
    (h : x.interval.Contains (num / den)) : ofRatio x.negative num den = .finite x := by
  obtain ⟨hnear, heven, hpower⟩ := near_of_contains hx h
  have hunit : (0 : ℚ) < 2 ^ x.exponent := by positivity
  obtain ⟨hlow, hhigh⟩ := abs_le.1 hnear
  have hone : (1 : ℚ) ≤ x.significand := by exact_mod_cast one_le_significand hx
  have hmax : (x.significand : ℚ) ≤ 2 ^ 53 - 1 := by
    have hlt : x.significand + 1 ≤ 2 ^ 53 := x.canonical.1
    have hltQ : (x.significand : ℚ) + 1 ≤ 2 ^ 53 := by exact_mod_cast hlt
    linarith
  have hnum : num ≠ 0 := by
    rintro rfl
    rw [Nat.cast_zero, zero_div, zero_div] at hlow
    linarith
  by_cases hreached : x.exponent = -1074 ∨ 2 ^ 52 * 2 ^ x.exponent ≤ (num : ℚ) / den
  · have hbelow : (num : ℚ) / den < 2 ^ 53 * 2 ^ x.exponent := by
      rw [← div_lt_iff₀ hunit]
      linarith
    have hbinade : InBinade (num / den) x.exponent := ⟨x.canonical.2.1, hbelow, hreached⟩
    rw [ofRatio_eq_ofParts hnum hden hbinade hnear heven]
    exact ofParts_self x
  · -- Below the least significand of its binade only the interval of a power of two goes on.
    obtain ⟨hne, hlt⟩ := not_or.1 hreached
    rw [not_le, ← div_lt_iff₀ hunit] at hlt
    have hleast := x.canonical.2.1
    have hsignificand : x.significand = 2 ^ 52 := by
      have hge : 2 ^ 52 ≤ x.significand := x.canonical.2.2.2.resolve_right hne
      have hleQ : (x.significand : ℚ) < 2 ^ 52 + 1 := by linarith
      have hle : x.significand < 2 ^ 52 + 1 := by exact_mod_cast hleQ
      omega
    have hquarter := hpower hsignificand (by omega)
    rw [hsignificand, Nat.cast_pow, Nat.cast_ofNat] at hquarter
    exact ofRatio_of_below_power hsignificand (by omega) hnum hden hquarter hlt

end Finite

end Binary64

end ControlLoop
