/-!
# Exact values of floating-point numbers

A finite number is a fraction of natural numbers with a sign. The decimal texts of a number are
computed from that fraction, never from another rounded text.
-/

namespace ClassAtlas.Decimal

/-- The magnitude of a finite number: `mantissa * 2 ^ (exponent - 1074)`. -/
structure Magnitude where
  mantissa : Nat
  exponent : Nat
  deriving DecidableEq, Repr

/-- What the bits of a number say. -/
inductive Decoded
  | nan
  | infinite (negative : Bool)
  | finite (negative : Bool) (magnitude : Magnitude)
  deriving DecidableEq, Repr

/-- Read the bits of a number in double precision. -/
def Decoded.ofBits (bits : Nat) : Decoded :=
  let fraction := bits % Nat.pow 2 52
  let exponent := bits / Nat.pow 2 52 % Nat.pow 2 11
  let negative := bits / Nat.pow 2 63 % 2 = 1
  if exponent = 2047 then
    if fraction = 0 then .infinite negative else .nan
  else if exponent = 0 then .finite negative ⟨fraction, 0⟩
  else .finite negative ⟨fraction + Nat.pow 2 52, exponent - 1⟩

/-- Read a number in double precision. -/
def decode (x : Float) : Decoded :=
  .ofBits x.toBits.toNat

/-- Numerator of the magnitude over `denominator`. -/
def Magnitude.numerator (m : Magnitude) : Nat :=
  m.mantissa * Nat.pow 2 m.exponent

/-- Every magnitude is a multiple of the least one. -/
def denominator : Nat :=
  Nat.pow 2 1074

/-- The value of a whole number. -/
def Decoded.whole? : Decoded → Option Int
  | .finite negative m =>
    if m.numerator % denominator = 0 then
      let n : Int := (m.numerator / denominator : Nat)
      some (if negative then -n else n)
    else none
  | _ => none

end ClassAtlas.Decimal
