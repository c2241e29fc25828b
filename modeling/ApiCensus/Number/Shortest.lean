import ApiCensus.Number.Binary64

/-!
# Shortest decimals

The fewest decimal digits that read back as a given double-precision number, and
the text made of them: positional for magnitudes from `10 ^ -4` up to `10 ^ 16`,
with an exponent of at least two digits beyond.
-/

namespace ApiCensus

namespace Number

/-- The number `digits · 10 ^ exponent`. -/
structure Decimal where
  digits : Nat
  exponent : Int
deriving DecidableEq, Repr

/-- The greatest `exponent` with `10 ^ exponent ≤ num / den`, for positive numbers. -/
def decimalMagnitude (num den : Nat) : Int :=
  if den ≤ num then (digitCount (num / den) : Int) - 1
  else -(digitCount ((den + num - 1) / num - 1) : Int)

/-- The reals that round to `mantissa · 2 ^ exponent`, in units of
`2 ^ (exponent - 2)`: between `low` and `high`, ends included if `closed`. -/
structure RoundingInterval where
  low : Nat
  middle : Nat
  high : Nat
  closed : Bool

/-- The rounding interval of a positive finite number. The gap below a power of
two is half as wide as the gap above it. -/
def roundingInterval (mantissa : Nat) (exponent : Int) : RoundingInterval where
  low := 4 * mantissa -
    (if mantissa = Nat.pow 2 52 && exponent > Binary64.leastExponent then 1 else 2)
  middle := 4 * mantissa
  high := 4 * mantissa + 2
  closed := mantissa % 2 = 0

/-- Of the two neighbours of the number on the grid of multiples of
`10 ^ gridExponent`, the one that rounds to it; the nearer if both do, the even
one if both are equally near. -/
def gridPoint? (mantissa : Nat) (exponent gridExponent : Int) : Option Decimal :=
  let interval := roundingInterval mantissa exponent
  let gridUnit := Nat.pow 10 gridExponent.toNat * Nat.pow 2 (2 - exponent).toNat
  let binaryUnit := Nat.pow 2 (exponent - 2).toNat * Nat.pow 10 (-gridExponent).toNat
  let value := interval.middle * binaryUnit
  let lower := value / gridUnit
  let accepts (point : Nat) : Bool :=
    let position := point * gridUnit
    let low := interval.low * binaryUnit
    let high := interval.high * binaryUnit
    if interval.closed then low ≤ position && position ≤ high
    else low < position && position < high
  let below := value - lower * gridUnit
  let above := (lower + 1) * gridUnit - value
  let pick (point : Nat) : Option Decimal := some ⟨point, gridExponent⟩
  match lower != 0 && accepts lower, accepts (lower + 1) with
  | true, true =>
      if below < above then pick lower
      else if above < below then pick (lower + 1)
      else pick (lower + lower % 2)
  | true, false => pick lower
  | false, true => pick (lower + 1)
  | false, false => none

/-- Remove zeros from the end of the digits; `fuel` bounds their number. -/
def dropZeros : (fuel : Nat) → Decimal → Decimal
  | 0, decimal => decimal
  | fuel + 1, ⟨digits, exponent⟩ =>
      if digits % 10 = 0 && digits != 0 then dropZeros fuel ⟨digits / 10, exponent + 1⟩
      else ⟨digits, exponent⟩

/-- The shortest decimal that rounds to a positive finite number. Seventeen
digits always suffice. -/
def shortest (mantissa : Nat) (exponent : Int) : Decimal :=
  let (num, den) := Binary64.ratio mantissa exponent
  let magnitude := decimalMagnitude num den
  let found := (List.range 17).findSome? fun (count : Nat) =>
    gridPoint? mantissa exponent (magnitude - count)
  dropZeros 20 (found.getD ⟨0, 0⟩)

/-- Digits with a decimal point `places` digits from the left, filled up with
zeros on either side; at least one digit follows the point. -/
def positional (digits : List Char) (places : Int) : List Char :=
  if places ≤ 0 then
    '0' :: '.' :: List.replicate (-places).toNat '0' ++ digits
  else
    let width := places.toNat
    if digits.length ≤ width then
      digits ++ List.replicate (width - digits.length) '0' ++ ['.', '0']
    else digits.take width ++ '.' :: digits.drop width

/-- Digits with a point after the first and a decimal exponent of two or more
digits. -/
def scientific (digits : List Char) (exponent : Int) : List Char :=
  let mantissa := match digits with
    | [] => []
    | [digit] => [digit]
    | digit :: more => digit :: '.' :: more
  let size := Number.digits exponent.natAbs
  let sign := if exponent < 0 then '-' else '+'
  mantissa ++ 'e' :: sign :: List.replicate (2 - size.length) '0' ++ size

end Number

namespace Binary64

open Number

/-- The text of a number: its shortest decimal, `inf` or `nan`. -/
def text : Binary64 → String
  | .nan => "nan"
  | .infinite negative => if negative then "-inf" else "inf"
  | .finite negative mantissa exponent =>
      let body :=
        if mantissa = 0 then ['0', '.', '0']
        else
          let decimal := shortest mantissa exponent
          let digits := Number.digits decimal.digits
          let places := (digits.length : Int) + decimal.exponent
          if places ≤ -4 || places > 16 then scientific digits (places - 1)
          else positional digits places
      String.ofList (if negative then '-' :: body else body)

end Binary64

end ApiCensus
