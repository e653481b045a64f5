/-!
# Double precision numbers

A finite double is a sign, a significand below `2 ^ 53` and a power of two, in
the one form that the format stores. All arithmetic on it is exact arithmetic
on natural numbers followed by one rounding to nearest, a tie going to the even
significand.
-/

set_option autoImplicit false

namespace ControlLoop

/-- A tie goes to the even neighbour. -/
def roundHalfEven (num den : Nat) : Nat :=
  let q := num / den
  let r := num % den
  if 2 * r < den then q
  else if den < 2 * r then q + 1
  else q + q % 2

namespace Binary64

/-- A significand and exponent as the format stores them: normal, or at the least exponent. -/
def Canonical (significand : Nat) (exponent : Int) : Prop :=
  significand < Nat.pow 2 53 ∧ -1074 ≤ exponent ∧ exponent ≤ 971 ∧
    (Nat.pow 2 52 ≤ significand ∨ exponent = -1074)

instance (significand : Nat) (exponent : Int) : Decidable (Canonical significand exponent) :=
  inferInstanceAs (Decidable (_ ∧ _ ∧ _ ∧ (_ ∨ _)))

/-- The finite double `± significand * 2 ^ exponent`. Zero has a sign too. -/
structure Finite where
  negative : Bool
  significand : Nat
  exponent : Int
  canonical : Canonical significand exponent
deriving DecidableEq

namespace Finite

/-- Zero of either sign. -/
def zero (negative : Bool) : Finite := ⟨negative, 0, -1074, by decide⟩

/-- Whether it is zero, of either sign. -/
def isZero (x : Finite) : Bool := x.significand == 0

/-- The number with the other sign. -/
def neg (x : Finite) : Finite := { x with negative := !x.negative }

/-- Equality of numbers: the two zeros are the same number. -/
protected def beq (x y : Finite) : Bool := x == y || (x.isZero && y.isZero)

/-- The magnitude as a numerator over a denominator. -/
def magnitude (x : Finite) : Nat × Nat :=
  if 0 ≤ x.exponent then (x.significand * Nat.pow 2 x.exponent.toNat, 1)
  else (x.significand, Nat.pow 2 (-x.exponent).toNat)

end Finite

end Binary64

/-- A double: a finite one, an infinity or not a number. -/
inductive Binary64 where
  | finite (x : Binary64.Finite)
  | infinite (negative : Bool)
  | nan
deriving DecidableEq

namespace Binary64

/-- The double with this significand and exponent, or the infinity if there is none so large. A
significand of `2 ^ 53` carries into the exponent. -/
def ofParts (negative : Bool) (significand : Nat) (exponent : Int) : Binary64 :=
  let (m, e) :=
    if significand = Nat.pow 2 53 then (Nat.pow 2 52, exponent + 1) else (significand, exponent)
  if h : Canonical m e then .finite ⟨negative, m, e, h⟩ else .infinite negative

/-- The quotient `num / (den * 2 ^ e)`, again as a numerator over a denominator. -/
def overPower (num den : Nat) (e : Int) : Nat × Nat :=
  if 0 ≤ e then (num, den * Nat.pow 2 e.toNat) else (num * Nat.pow 2 (-e).toNat, den)

/-- The exponent at which the quotient has 53 binary digits, or the least one. -/
def binadeOf (num den : Nat) : Int :=
  let low := max ((num.log2 : Int) - den.log2 - 53) (-1074)
  let (n, d) := overPower num den low
  if n / d < Nat.pow 2 53 then low else low + 1

/-- The double nearest to `± num / den`, a tie going to the even significand. -/
def ofRatio (negative : Bool) (num den : Nat) : Binary64 :=
  if num = 0 then .finite (.zero negative)
  else
    let e := binadeOf num den
    let (n, d) := overPower num den e
    ofParts negative (roundHalfEven n d) e

/-- The double nearest to a natural number. -/
def ofNat (n : Nat) : Binary64 := ofRatio false n 1

/-- The double nearest to an integer. -/
def ofInt (n : Int) : Binary64 := ofRatio (decide (n < 0)) n.natAbs 1

/-- The double nearest to `± digits * 10 ^ exponent`. Exponents far outside the range of the format
are settled without forming the power. -/
def ofDecimal (negative : Bool) (digits : Nat) (exponent : Int) : Binary64 :=
  if digits = 0 then .finite (.zero negative)
  else
    let leading := (digits.log2 : Int) / 4 + exponent
    if 400 < leading then .infinite negative
    else if (digits.log2 : Int) / 3 + exponent < -400 then .finite (.zero negative)
    else if 0 ≤ exponent then ofRatio negative (digits * Nat.pow 10 exponent.toNat) 1
    else ofRatio negative digits (Nat.pow 10 (-exponent).toNat)

/-- The double nearest to the product of the magnitudes. -/
def mulMagnitude (x y : Finite) : Binary64 :=
  let (a, b) := x.magnitude
  let (c, d) := y.magnitude
  ofRatio false (a * c) (b * d)

/-- The double nearest to the quotient of the magnitudes. -/
def divMagnitude (x y : Finite) : Binary64 :=
  let (a, b) := x.magnitude
  let (c, d) := y.magnitude
  ofRatio false (a * d) (b * c)

end Binary64

end ControlLoop
