import ControlLoop.Binary64.Basic

/-!
# Shortest decimal digits

The reals that round to a given double form an interval around it. Its shortest
decimal is the point of the coarsest power-of-ten grid that meets the interval;
of two such points the nearer is taken. Which of two equally near ones is taken
is for each format to say. On every grid only the two neighbours of the double
itself can be nearest, so only these are tried.
-/

set_option autoImplicit false

namespace ControlLoop.Binary64

/-- The decimal `digits * 10 ^ exponent`. -/
structure Decimal where
  digits : Nat
  exponent : Int
deriving DecidableEq

/-- Which neighbour on a grid is taken for a magnitude halfway between two. -/
inductive Tie where
  | toEven
  | awayFromZero
deriving DecidableEq, Repr

/-- The neighbour to take between a point of a grid and the next one. -/
def Tie.choose : Tie → (below : Nat) → Nat
  | toEven, below => below + below % 2
  | awayFromZero, below => below + 1

/-- The interval of a double, with its ends and its centre in units of `2 ^ exponent`. -/
structure RoundingInterval where
  low : Nat
  centre : Nat
  high : Nat
  exponent : Int
  /-- Whether the ends round to the double as well. -/
  closed : Bool

namespace Finite

/-- The interval reaches halfway to either neighbour. The lower neighbour of a power of two is
nearer than the upper one. -/
def interval (x : Finite) : RoundingInterval where
  low := 4 * x.significand - if x.significand = Nat.pow 2 52 ∧ -1074 < x.exponent then 1 else 2
  centre := 4 * x.significand
  high := 4 * x.significand + 2
  exponent := x.exponent - 2
  closed := x.significand % 2 = 0

end Finite

namespace RoundingInterval

/-- The nearest point of the grid of multiples of `10 ^ k` that lies in the interval, counted in
that power. -/
def gridPoint? (r : RoundingInterval) (tie : Tie) (k : Int) : Option Nat :=
  let a := Nat.pow 2 r.exponent.toNat * Nat.pow 10 (-k).toNat
  let b := Nat.pow 2 (-r.exponent).toNat * Nat.pow 10 k.toNat
  let inside (d : Nat) : Bool :=
    if r.closed then r.low * a ≤ d * b && d * b ≤ r.high * a
    else r.low * a < d * b && d * b < r.high * a
  let below := r.centre * a / b
  let middle := (2 * below + 1) * b
  let nearer :=
    if 2 * (r.centre * a) < middle then below
    else if middle < 2 * (r.centre * a) then below + 1
    else tie.choose below
  let farther := 2 * below + 1 - nearer
  if inside nearer then some nearer
  else if inside farther then some farther
  else none

end RoundingInterval

namespace Finite

/-- An estimate from above, by at most two, of the power of ten of the leading digit. -/
def leadingPower (x : Finite) : Int :=
  ((x.significand.log2 : Int) + x.exponent) * 1233 / 4096 + 1

/-- The shortest decimal of the magnitude. Seventeen digits always suffice. -/
def shortest (x : Finite) (tie : Tie) : Decimal :=
  let point? (i : Nat) : Option Decimal :=
    let k := x.leadingPower + 1 - i
    (x.interval.gridPoint? tie k).map fun d => ⟨d, k⟩
  if x.isZero then ⟨0, 0⟩ else ((List.range 24).findSome? point?).getD ⟨0, 0⟩

end Finite

end ControlLoop.Binary64
