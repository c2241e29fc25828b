import ApiCensus.Number.Binary64

/-!
# Fixed decimal places

A double-precision number written with a given number of decimal places.  The
exact binary value is rounded, ties to the even last digit, and the sign stays
also when all digits are zero.
-/

namespace ApiCensus.Binary64

open Number

/-- The digits of `value` with a point before the last `places` of them. -/
def pointed (places value : Nat) : List Char :=
  let all := digits value
  let padded := List.replicate (places + 1 - all.length) '0' ++ all
  let whole := padded.length - places
  if places = 0 then padded
  else padded.take whole ++ '.' :: padded.drop whole

/-- The number with `places` decimal places. -/
def fixed (places : Nat) : Binary64 → String
  | .nan => "nan"
  | .infinite negative => if negative then "-inf" else "inf"
  | .finite negative mantissa exponent =>
      let (num, den) := ratio mantissa exponent
      let body := pointed places (roundDiv (num * Nat.pow 10 places) den)
      String.ofList (if negative then '-' :: body else body)

end ApiCensus.Binary64
