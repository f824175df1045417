import ClassAtlas.Decimal.Binary

/-!
# Decimals with a fixed number of places

The exact value is rounded to the nearest decimal; of two nearest ones the even one is taken.
-/

namespace ClassAtlas.Decimal

/-- The quotient rounded to the nearest natural number, halves to the even one. -/
def roundHalfEven (numerator denominator : Nat) : Nat :=
  let quotient := numerator / denominator
  let rest := numerator % denominator
  if denominator < 2 * rest then quotient + 1
  else if 2 * rest = denominator then quotient + quotient % 2
  else quotient

/-- A natural number of units of the last place, with a point before the last `places` digits. -/
def withPoint (places units : Nat) : List Char :=
  let digits := Nat.toDigits 10 units
  let padded := List.replicate (places + 1 - digits.length) '0' ++ digits
  padded.take (padded.length - places) ++ '.' :: padded.drop (padded.length - places)

/-- The sign of a negative number. -/
def sign (negative : Bool) : List Char :=
  if negative then ['-'] else []

/-- The decoded number with `places` digits after the point. -/
def Decoded.fixed (places : Nat) : Decoded → List Char
  | .nan => ['N', 'a', 'N']
  | .infinite negative => sign negative ++ ['i', 'n', 'f']
  | .finite negative m =>
    sign negative ++ withPoint places (roundHalfEven (m.numerator * Nat.pow 10 places) denominator)

/-- The number with `places` digits after the point. -/
def fixed (places : Nat) (x : Float) : List Char :=
  (decode x).fixed places

end ClassAtlas.Decimal
