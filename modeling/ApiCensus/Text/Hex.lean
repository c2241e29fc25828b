/-!
# Hexadecimal digits

Fixed-width hexadecimal numerals in lower case, and the value of a digit.
-/

namespace ApiCensus.Text

/-- The hexadecimal digit of a number below sixteen. -/
def hexDigit (digit : Nat) : Char :=
  Char.ofNat (if digit < 10 then '0'.toNat + digit else 'a'.toNat + (digit - 10))

/-- The last `width` hexadecimal digits of `value`, most significant first. -/
def hexDigits : (width value : Nat) → List Char
  | 0, _ => []
  | width + 1, value => hexDigits width (value / 16) ++ [hexDigit (value % 16)]

/-- The value of a hexadecimal digit in either case. -/
def hexValue? (c : Char) : Option Nat :=
  if '0' ≤ c && c ≤ '9' then some (c.toNat - '0'.toNat)
  else if 'a' ≤ c && c ≤ 'f' then some (c.toNat - 'a'.toNat + 10)
  else if 'A' ≤ c && c ≤ 'F' then some (c.toNat - 'A'.toNat + 10)
  else none

/-- The number that a sequence of hexadecimal digits denotes. -/
def hexNumber? (chars : List Char) : Option Nat :=
  chars.foldl (fun total c => do
    let sum ← total
    let digit ← hexValue? c
    return 16 * sum + digit) (some 0)

@[simp] theorem length_hexDigits (width value : Nat) :
    (hexDigits width value).length = width := by
  induction width generalizing value with
  | zero => rfl
  | succ width ih => simp [hexDigits, ih]

end ApiCensus.Text
