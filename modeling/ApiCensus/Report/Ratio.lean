import ApiCensus.Failure
import ApiCensus.Number.Fixed

/-!
# Ratios in reports

An exact ratio is rounded to the nearest double-precision number first and then
written with a fixed number of decimal places.
-/

namespace ApiCensus.Report

/-- The double-precision number nearest to a ratio. -/
def nearestDouble (value : Rat) : Except Failure Binary64 :=
  match Binary64.nearest (value.num < 0) value.num.natAbs value.den with
  | .infinite _ => .error .overflow
  | number => .ok number

/-- The most decimal places that can be written. -/
def maxPlaces : Int := 2147483647

/-- The largest number of places that can be asked for. -/
def maxPlacesAsked : Int := 9223372036854775807

/-- A number of decimal places. -/
def places (precision : Int) : Except Failure Nat :=
  if precision < 0 then .error (.invalid .precision)
  else if precision > maxPlacesAsked then .error (.invalid .tooManyPlaces)
  else if precision > maxPlaces then .error (.invalid .precisionTooBig)
  else .ok precision.toNat

/-- A ratio with a fixed number of decimal places. -/
def formatRatio (precision : Int) (value : Rat) : Except Failure String := do
  let number ← nearestDouble value
  return number.fixed (← places precision)

/-- A ratio as a percentage with one decimal place. -/
def formatPercent (value : Rat) : Except Failure String := do
  let number ← nearestDouble value
  return (number.mul (.ofInt 100)).fixed 1 ++ "%"

/-- The integer that a setting denotes. -/
def integerSetting : Value → Except Failure Int
  | .int number => .ok number
  | .bool truth => .ok (if truth then 1 else 0)
  | .float .nan => .error (.invalid .notANumber)
  | .float number =>
      match number.truncate? with
      | some whole => .ok whole
      | none => .error .overflow
  | .text content => (Number.readInteger content).mapError fun cause => .invalid (.integer cause)
  | _ => .error (.shape .unsuited)

end ApiCensus.Report
