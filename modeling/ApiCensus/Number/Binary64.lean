import ApiCensus.Number.Rounding

/-!
# Double-precision numbers

Finite numbers are kept as sign, mantissa and binary exponent, so that every
operation is exact integer arithmetic followed by one rounding to the nearest
representable number, ties to the even mantissa.
-/

namespace ApiCensus

/-- A double-precision number; a finite one is `± mantissa · 2 ^ exponent`. -/
inductive Binary64
  | finite (negative : Bool) (mantissa : Nat) (exponent : Int)
  | infinite (negative : Bool)
  | nan
deriving DecidableEq, Repr

namespace Binary64

open Number

/-- The exponent of the smallest numbers. -/
def leastExponent : Int := -1074

/-- The exponent of the largest numbers. -/
def greatestExponent : Int := 971

/-- Mantissas stay below this bound. -/
def mantissaBound : Nat := Nat.pow 2 53

/-- Zero with a sign. -/
def zero (negative : Bool) : Binary64 :=
  .finite negative 0 leastExponent

/-- `2 ^ exponent` as a numerator and a denominator. -/
def powerOfTwo (exponent : Int) : Nat × Nat :=
  (Nat.pow 2 exponent.toNat, Nat.pow 2 (-exponent).toNat)

/-- The greatest `exponent` with `2 ^ exponent ≤ num / den`, for positive numbers. -/
def binaryMagnitude (num den : Nat) : Int :=
  let estimate : Int := (num.log2 : Int) - (den.log2 : Int)
  let (up, down) := powerOfTwo estimate
  if den * up ≤ num * down then estimate else estimate - 1

/-- The number nearest to `± num / den`; infinite when that is too large. -/
def nearest (negative : Bool) (num den : Nat) : Binary64 :=
  if num = 0 then zero negative
  else
    let exponent := max (binaryMagnitude num den - 52) leastExponent
    let (up, down) := powerOfTwo exponent
    let mantissa := roundDiv (num * down) (den * up)
    let (mantissa, exponent) :=
      if mantissa = mantissaBound then (mantissaBound / 2, exponent + 1)
      else (mantissa, exponent)
    if exponent > greatestExponent then .infinite negative
    else .finite negative mantissa exponent

/-- The number nearest to `± digits · 10 ^ exponent`. -/
def ofDecimal (negative : Bool) (digits : Nat) (exponent : Int) : Binary64 :=
  let magnitude : Int := digitCount digits + exponent
  if digits = 0 || magnitude < -400 then zero negative
  else if magnitude > 400 then .infinite negative
  else nearest negative (digits * Nat.pow 10 exponent.toNat) (Nat.pow 10 (-exponent).toNat)

/-- The number nearest to an integer. -/
def ofInt (value : Int) : Binary64 :=
  nearest (value < 0) value.natAbs 1

/-- The absolute value of a finite number as numerator and denominator. -/
def ratio (mantissa : Nat) (exponent : Int) : Nat × Nat :=
  let (up, down) := powerOfTwo exponent
  (mantissa * up, down)

/-- The product, rounded to the nearest number. -/
def mul : Binary64 → Binary64 → Binary64
  | .nan, _ => .nan
  | _, .nan => .nan
  | .infinite left, .infinite right => .infinite (left != right)
  | .infinite left, .finite right mantissa _ =>
      if mantissa = 0 then .nan else .infinite (left != right)
  | .finite left mantissa _, .infinite right =>
      if mantissa = 0 then .nan else .infinite (left != right)
  | .finite left mantissa exponent, .finite right mantissa' exponent' =>
      let (num, den) := ratio (mantissa * mantissa') (exponent + exponent')
      nearest (left != right) num den

/-- The quotient, rounded to the nearest number. -/
def div : Binary64 → Binary64 → Binary64
  | .nan, _ => .nan
  | _, .nan => .nan
  | .infinite _, .infinite _ => .nan
  | .infinite left, .finite right _ _ => .infinite (left != right)
  | .finite left _ _, .infinite right => zero (left != right)
  | .finite left mantissa exponent, .finite right mantissa' exponent' =>
      if mantissa' = 0 then (if mantissa = 0 then .nan else .infinite (left != right))
      else
        let (num, den) := ratio mantissa exponent
        let (num', den') := ratio mantissa' exponent'
        nearest (left != right) (num * den') (den * num')

/-- The opposite number. -/
def neg : Binary64 → Binary64
  | .finite negative mantissa exponent => .finite (!negative) mantissa exponent
  | .infinite negative => .infinite (!negative)
  | .nan => .nan

/-- The sum, rounded to the nearest number. A sum of zero is negative only if both
numbers are. -/
def add : Binary64 → Binary64 → Binary64
  | .nan, _ => .nan
  | _, .nan => .nan
  | .infinite left, .infinite right => if left = right then .infinite left else .nan
  | .infinite left, _ => .infinite left
  | _, .infinite right => .infinite right
  | .finite left mantissa exponent, .finite right mantissa' exponent' =>
      let (num, den) := ratio mantissa exponent
      let (num', den') := ratio mantissa' exponent'
      let signed (negative : Bool) (size : Nat) : Int := if negative then -(size : Int) else size
      let sum := signed left (num * den') + signed right (num' * den)
      if sum = 0 then zero (left && right)
      else nearest (sum < 0) sum.natAbs (den * den')

/-- Whether the number is neither zero nor missing its value: every number but
the two zeros counts as true. -/
def isNonzero : Binary64 → Bool
  | .finite _ mantissa _ => mantissa != 0
  | _ => true

/-- The integer part of a finite number. -/
def truncate? : Binary64 → Option Int
  | .finite negative mantissa exponent =>
      let (num, den) := ratio mantissa exponent
      let whole : Int := (num / den : Nat)
      some (if negative then -whole else whole)
  | _ => none

/-- A place on the number line: `sign · num / den`, or beyond all of these. -/
inductive Place
  | below
  | at (num : Int) (den : Nat)
  | above

/-- Where a number stands; one that is not a number stands nowhere. -/
def place? : Binary64 → Option Place
  | .nan => none
  | .infinite true => some .below
  | .infinite false => some .above
  | .finite negative mantissa exponent =>
      let (num, den) := ratio mantissa exponent
      some (.at (if negative then -(num : Int) else num) den)

/-- Order of places. -/
def Place.compare : Place → Place → Ordering
  | .below, .below => .eq
  | .below, _ => .lt
  | _, .below => .gt
  | .above, .above => .eq
  | .above, _ => .gt
  | _, .above => .lt
  | .at num den, .at num' den' => Ord.compare (num * den') (num' * den)

/-- Whether a number stands before another one. What is not a number stands before
nothing. -/
def isBelow (left right : Binary64) : Bool :=
  match left.place?, right.place? with
  | some one, some other => one.compare other == .lt
  | _, _ => false

end Binary64

end ApiCensus
