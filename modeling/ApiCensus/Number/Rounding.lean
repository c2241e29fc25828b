/-!
# Rounding quotients

Division of natural numbers to the nearest integer.  A quotient half-way between
two integers goes to the even one.
-/

namespace ApiCensus.Number

/-- The integer nearest to `num / den`, ties to the even neighbour. -/
def roundDiv (num den : Nat) : Nat :=
  let quotient := num / den
  let twice := 2 * (num % den)
  if twice < den then quotient
  else if den < twice then quotient + 1
  else quotient + quotient % 2

/-- Rounding misses the quotient by at most one half. -/
theorem two_mul_roundDiv_bounds (num : Nat) {den : Nat} (positive : 0 < den) :
    2 * num ≤ 2 * den * roundDiv num den + den ∧
      2 * den * roundDiv num den ≤ 2 * num + den := by
  have split : den * (num / den) + num % den = num := Nat.div_add_mod num den
  have small : num % den < den := Nat.mod_lt _ positive
  have parity : num / den % 2 < 2 := Nat.mod_lt _ (by omega)
  have expand : ∀ extra : Nat, 2 * den * (num / den + extra) =
      2 * (den * (num / den)) + 2 * den * extra := by
    intro extra
    rw [Nat.mul_add, Nat.mul_assoc]
  have double : 2 * den * (num / den) = 2 * (den * (num / den)) := Nat.mul_assoc ..
  simp only [roundDiv]
  split
  · omega
  · split
    · rw [expand 1]
      omega
    · rcases Nat.lt_succ_iff_lt_or_eq.mp parity with even | odd
      · have none : num / den % 2 = 0 := by omega
        rw [none, Nat.add_zero]
        omega
      · rw [odd, expand 1]
        omega

/-- The sum of natural numbers. -/
def total (numbers : List Nat) : Nat :=
  numbers.foldr (· + ·) 0

/-- The decimal digits of a number, most significant first. -/
def digits (value : Nat) : List Char :=
  Nat.toDigits 10 value

/-- How many decimal digits a number has; zero has none. -/
def digitCount (value : Nat) : Nat :=
  if value = 0 then 0 else (digits value).length

end ApiCensus.Number
