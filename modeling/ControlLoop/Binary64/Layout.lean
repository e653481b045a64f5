import ControlLoop.Binary64.Shortest

/-!
# Writing doubles

A double is written with its shortest digits, either positionally, with at
least one digit on each side of the point, or as a decimal of one leading digit
with a signed power of ten. A format chooses between the two by the power of
ten of the leading digit, and says where ties go.
-/

set_option autoImplicit false

namespace ControlLoop.Binary64

/-- How a format writes a finite double. -/
structure Layout where
  /-- Which powers of the leading digit are written positionally. -/
  positional : Int → Bool
  /-- Which of two equally near and equally short decimals is written. -/
  tie : Tie

/-- A run of zeros. -/
def zeros (n : Nat) : List Char := List.replicate n '0'

/-- The point stands before the last `-exponent` digits, or after as many zeros. -/
def positionalText (digits : List Char) (exponent : Int) : List Char :=
  let point := (digits.length : Int) + exponent
  if 0 ≤ exponent then digits ++ zeros exponent.toNat ++ ['.', '0']
  else if 0 < point then digits.take point.toNat ++ '.' :: digits.drop point.toNat
  else ['0', '.'] ++ zeros (-point).toNat ++ digits

/-- The exponent with its sign, which is always written. -/
def signedText (e : Int) : List Char :=
  (if e < 0 then '-' else '+') :: (toString e.natAbs).toList

/-- One digit, the point and the other digits if there are any, and the power of ten. -/
def scientificText (digits : List Char) (leading : Int) : List Char :=
  let rest := digits.drop 1
  digits.take 1 ++ (if rest.isEmpty then [] else '.' :: rest) ++ 'e' :: signedText leading

namespace Finite

/-- The text of a finite double. -/
def render (layout : Layout) (x : Finite) : String :=
  let decimal := x.shortest layout.tie
  let digits := (toString decimal.digits).toList
  let leading := (digits.length : Int) - 1 + decimal.exponent
  let text :=
    if x.isZero || layout.positional leading then positionalText digits decimal.exponent
    else scientificText digits leading
  String.ofList (if x.negative then '-' :: text else text)

end Finite

end ControlLoop.Binary64
