import ClassAtlas.Toml.Text

/-!
# Numbers and moments of TOML documents

Integers have 64 bits with a sign. Numbers with a fraction or an exponent, dates and times are only
checked for their form, since no setting takes one.
-/

namespace ClassAtlas.Toml

open ClassAtlas.Text (hexValue?)

/-- The rest of a run of digits, in which single underscores may separate digits. -/
def digitsRest (isDigit : Char → Bool) : List Char → List Char × List Char
  | [] => ([], [])
  | c :: rest =>
    if isDigit c then
      let (digits, after) := digitsRest isDigit rest
      (c :: digits, after)
    else
      match c, rest with
      | '_', d :: more =>
        if isDigit d then
          let (digits, after) := digitsRest isDigit more
          (d :: digits, after)
        else ([], c :: rest)
      | _, _ => ([], c :: rest)

/-- A run of at least one digit. -/
def digits? (isDigit : Char → Bool) : Reader (List Char)
  | [] => none
  | c :: rest =>
    if isDigit c then
      let (digits, after) := digitsRest isDigit rest
      some (c :: digits, after)
    else none

/-- The number written by digits in a base. -/
def ofDigits (base : Nat) (digits : List Char) : Nat :=
  digits.foldl (fun value c => value * base + (hexValue? c).getD 0) 0

/-- A sign, and the text after it. -/
def sign : List Char → Bool × List Char
  | '+' :: rest => (false, rest)
  | '-' :: rest => (true, rest)
  | text => (false, text)

/-- A decimal number without a leading zero. -/
def decimal? : Reader Nat
  | '0' :: rest => some (0, rest)
  | text => (digits? Char.isDigit text).map fun (digits, rest) => (ofDigits 10 digits, rest)

/-- The integer has 64 bits with a sign. -/
def isWord (value : Int) : Bool :=
  Int64.minValue.toInt ≤ value && value ≤ Int64.maxValue.toInt

/-- An integer in base ten with a sign, or in base sixteen, eight or two. -/
def integer? (text : List Char) : Option (Int × List Char) :=
  let result : Option (Int × List Char) := match text with
    | '0' :: 'x' :: rest =>
      (digits? (fun c => (hexValue? c).isSome) rest).map fun (ds, rest) => (ofDigits 16 ds, rest)
    | '0' :: 'o' :: rest =>
      (digits? (fun c => '0' ≤ c ∧ c ≤ '7') rest).map fun (ds, rest) => (ofDigits 8 ds, rest)
    | '0' :: 'b' :: rest =>
      (digits? (fun c => c = '0' ∨ c = '1') rest).map fun (ds, rest) => (ofDigits 2 ds, rest)
    | text =>
      let (negative, rest) := sign text
      (decimal? rest).map fun (n, rest) => (if negative then -(n : Int) else n, rest)
  result.filter fun (value, _) => isWord value

/-- An exponent: the mark, a sign if there is one, and digits. -/
def exponent? : Reader Int
  | [] => none
  | c :: rest =>
    if c = 'e' ∨ c = 'E' then
      let (negative, rest) := sign rest
      (digits? Char.isDigit rest).map fun (ds, rest) =>
        (if negative then -(ofDigits 10 ds : Int) else (ofDigits 10 ds : Int), rest)
    else none

/-- The digits after a point. -/
def fraction? : Reader (List Char)
  | '.' :: rest => digits? Char.isDigit rest
  | _ => none

/-- The bound from which on a decimal has no finite number in double precision next to it. -/
def overflowBound : Nat :=
  Nat.pow 2 1024 - Nat.pow 2 970

/-- The decimal `mantissa * 10 ^ exponent` is too large for double precision. -/
def overflows (mantissa : Nat) (exponent : Int) : Bool :=
  if mantissa = 0 then false
  else
    let order := (Nat.toDigits 10 mantissa).length + exponent
    if 400 < order then true
    else if order < 300 then false
    else overflowBound * Nat.pow 10 (-exponent).toNat ≤ mantissa * Nat.pow 10 exponent.toNat

/-- A number with a fraction, an exponent or both, infinity, or no number. A positive one is finite
unless it is written as infinity. -/
def real? (text : List Char) : Option (List Char) :=
  let (negative, rest) := sign text
  match rest with
  | 'i' :: 'n' :: 'f' :: rest => some rest
  | 'n' :: 'a' :: 'n' :: rest => some rest
  | _ =>
    match decimal? rest with
    | none => none
    | some (whole, rest) =>
      match fraction? rest with
      | none =>
        (exponent? rest).bind fun (exponent, rest) =>
          if !negative && overflows whole exponent then none else some rest
      | some (fraction, rest) =>
        let (exponent, rest) := (exponent? rest).getD (0, rest)
        let mantissa := whole * Nat.pow 10 fraction.length + ofDigits 10 fraction
        if !negative && overflows mantissa (exponent - fraction.length) then none else some rest

/-- A number of exactly `count` digits. -/
def fixedNumber? (count : Nat) (text : List Char) : Option (Nat × List Char) :=
  let digits := text.take count
  if digits.length = count ∧ digits.all Char.isDigit then some (ofDigits 10 digits, text.drop count)
  else none

/-- A number of two digits between bounds. -/
def twoDigits? (low high : Nat) (text : List Char) : Option (Nat × List Char) :=
  (fixedNumber? 2 text).filter fun (n, _) => low ≤ n ∧ n ≤ high

/-- The text after an expected character. -/
def afterChar? (c : Char) : List Char → Option (List Char)
  | [] => none
  | d :: rest => if c = d then some rest else none

/-- The number of days of a month. -/
def daysIn (year month : Nat) : Nat :=
  if month = 2 then
    if year % 4 = 0 ∧ (year % 100 ≠ 0 ∨ year % 400 = 0) then 29 else 28
  else if month ∈ [4, 6, 9, 11] then 30
  else 31

/-- A date. -/
def date? (text : List Char) : Option (List Char) := do
  let (year, rest) ← fixedNumber? 4 text
  let (month, rest) ← twoDigits? 1 12 (← afterChar? '-' rest)
  let (_, rest) ← twoDigits? 1 (daysIn year month) (← afterChar? '-' rest)
  return rest

/-- The text after the fraction of a second, if there is one. -/
def afterSecondFraction (text : List Char) : List Char :=
  match text with
  | '.' :: d :: rest => if d.isDigit then rest.dropWhile Char.isDigit else text
  | _ => text

/-- A time of day. A minute may have a leap second. -/
def time? (text : List Char) : Option (List Char) := do
  let (_, rest) ← twoDigits? 0 23 text
  let (_, rest) ← twoDigits? 0 59 (← afterChar? ':' rest)
  let (_, rest) ← twoDigits? 0 60 (← afterChar? ':' rest)
  return afterSecondFraction rest

/-- The offset of a time from universal time. -/
def offset? (text : List Char) : Option (List Char) :=
  match text with
  | 'Z' :: rest => some rest
  | 'z' :: rest => some rest
  | c :: rest =>
    if c = '+' ∨ c = '-' then do
      let (_, rest) ← twoDigits? 0 23 rest
      let (_, rest) ← twoDigits? 0 59 (← afterChar? ':' rest)
      return rest
    else none
  | [] => none

/-- The text after a time of day that belongs to a date, if there is one. -/
def afterDayTime (text : List Char) : List Char :=
  match text with
  | c :: rest =>
    if c = 'T' ∨ c = 't' ∨ c = ' ' then
      match time? rest with
      | some rest => (offset? rest).getD rest
      | none => text
    else text
  | [] => text

/-- A date, a date with a time, or a time. -/
def moment? (text : List Char) : Option (List Char) :=
  match date? text with
  | some rest => some (afterDayTime rest)
  | none => time? text

end ClassAtlas.Toml
