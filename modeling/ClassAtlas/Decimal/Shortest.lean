import ClassAtlas.Decimal.Fixed

/-!
# Shortest decimals

Of all decimals that are read back as a given number, the shortest is written, and of several
shortest ones the nearest.
-/

namespace ClassAtlas.Decimal

/-- The decimal `digits * 10 ^ place`. -/
structure Scaled where
  digits : Nat
  place : Int
  deriving DecidableEq, Repr

/-- The numbers that are read as a given one lie between two bounds, which belong to them if its
mantissa is even. Everything is counted so that one is `unit`. -/
structure Interval where
  low : Nat
  value : Nat
  high : Nat
  unit : Nat
  closed : Bool
  deriving DecidableEq, Repr

/-- The interval of a magnitude, in quarters of its last binary place. Below a power of two the next
number is only half as far away. -/
def Magnitude.interval (m : Magnitude) : Interval :=
  let scale := Nat.pow 2 (m.exponent - 1074)
  let below := if m.mantissa = Nat.pow 2 52 ∧ 0 < m.exponent then 1 else 2
  { low := (4 * m.mantissa - below) * scale
    value := 4 * m.mantissa * scale
    high := (4 * m.mantissa + 2) * scale
    unit := 4 * Nat.pow 2 (1074 - m.exponent)
    closed := m.mantissa % 2 = 0 }

/-- The interval counted so that `10 ^ place` is the unit. -/
def Interval.atPlace (i : Interval) (place : Int) : Interval :=
  let factor := Nat.pow 10 (-place).toNat
  { i with
    low := i.low * factor
    value := i.value * factor
    high := i.high * factor
    unit := i.unit * Nat.pow 10 place.toNat }

/-- A multiple of the unit lies in the interval. -/
def Interval.contains (i : Interval) (multiple : Nat) : Bool :=
  let point := multiple * i.unit
  if i.closed then i.low ≤ point && point ≤ i.high else i.low < point && point < i.high

/-- The multiple of the unit next to the value that lies in the interval, the nearer one if both
do. -/
def Interval.multiple? (i : Interval) : Option Nat :=
  let down := i.value / i.unit
  let up := down + 1
  if 0 < down ∧ i.contains down then
    if i.contains up ∧ up * i.unit - i.value ≤ i.value - down * i.unit then some up else some down
  else if i.contains up then some up
  else none

/-- The least number of decimal places after which a value below the unit has a digit before the
point, searched up to `bound`. -/
def leadingPlaces (unit : Nat) : (bound value : Nat) → Nat
  | 0, _ => 0
  | bound + 1, value => if unit ≤ value then 0 else leadingPlaces unit bound (value * 10) + 1

/-- The number of digits before the point, zero or negative for a value below one. -/
def Interval.order (i : Interval) : Int :=
  if i.unit ≤ i.value then (Nat.toDigits 10 (i.value / i.unit)).length
  else 1 - (leadingPlaces i.unit 400 i.value : Nat)

/-- The decimal without trailing zeros, of which at most `bound` are removed. -/
def Scaled.stripped : (bound : Nat) → Scaled → Scaled
  | 0, d => d
  | bound + 1, d =>
    if d.digits % 10 = 0 then Scaled.stripped bound ⟨d.digits / 10, d.place + 1⟩ else d

/-- Seventeen digits tell every number apart. -/
def maxDigits : Nat := 17

/-- The shortest decimal in the interval: the first grid of one, two and more digits that has a
point in it. -/
def Interval.shortest (i : Interval) : Scaled :=
  let order := i.order
  let found := (List.range maxDigits).findSome? fun n =>
    let place := order - (n + 1 : Nat)
    (i.atPlace place).multiple?.map fun digits => (⟨digits, place⟩ : Scaled)
  (found.getD ⟨0, 0⟩).stripped maxDigits

/-- How a decimal is laid out: which positions of the point are written without an exponent. -/
structure Layout where
  positional : Int → Bool

/-- The layout of numbers in JSON: an exponent from ten to the sixteenth on, and below ten to the
minus fifth. -/
def Layout.json : Layout :=
  ⟨fun point => -5 < point && point ≤ 16⟩

/-- The layout without exponents. -/
def Layout.plain : Layout :=
  ⟨fun _ => true⟩

/-- The text of a decimal that is not zero. There is always a digit after the point. -/
def Scaled.text (layout : Layout) (d : Scaled) : List Char :=
  let digits := Nat.toDigits 10 d.digits
  let point := (digits.length : Int) + d.place
  if layout.positional point then
    if 0 ≤ d.place then digits ++ List.replicate d.place.toNat '0' ++ ['.', '0']
    else if 0 < point then digits.take point.toNat ++ '.' :: digits.drop point.toNat
    else ['0', '.'] ++ List.replicate (-point).toNat '0' ++ digits
  else
    let exponent := (toString (point - 1)).toList
    match digits with
    | [] => []
    | [first] => first :: 'e' :: exponent
    | first :: others => first :: '.' :: others ++ 'e' :: exponent

/-- The shortest text of a decoded number. -/
def Decoded.shortest (layout : Layout) : Decoded → List Char
  | .nan => ['N', 'a', 'N']
  | .infinite negative => sign negative ++ ['i', 'n', 'f']
  | .finite negative m =>
    if m.mantissa = 0 then sign negative ++ ['0', '.', '0']
    else sign negative ++ m.interval.shortest.text layout

/-- The shortest text of a number. -/
def shortest (layout : Layout) (x : Float) : String :=
  String.ofList ((decode x).shortest layout)

end ClassAtlas.Decimal
