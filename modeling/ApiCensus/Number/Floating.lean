import ApiCensus.Number.Binary64
import ApiCensus.Number.Integer

/-!
# Reading floating-point numbers

A number is written with digits of any script, an optional sign, fraction and
exponent, blanks around it and single underscores between digits; `inf`,
`infinity` and `nan` are numbers in any case.
-/

namespace ApiCensus.Number

/-- The text with ASCII digits in place of those of other scripts. -/
def asciiDigits (chars : List Char) : List Char :=
  chars.map fun c =>
    match Text.decimalValue? c with
    | some value => Char.ofNat ('0'.toNat + value)
    | none => c

/-- Remove underscores that stand between digits; none may stand elsewhere. -/
def dropUnderscores : (afterDigit : Bool) → List Char → Option (List Char)
  | _, [] => some []
  | afterDigit, c :: rest =>
      if c = '_' then
        if afterDigit && rest.head?.any Char.isDigit then dropUnderscores false rest else none
      else (dropUnderscores c.isDigit rest).map (c :: ·)

/-- The leading digits and what follows them. -/
def spanAscii (chars : List Char) : List Char × List Char :=
  (chars.takeWhile Char.isDigit, chars.dropWhile Char.isDigit)

/-- The number of ASCII digits. -/
def asciiNumber (chars : List Char) : Nat :=
  ofDigits 10 (chars.map fun c => c.toNat - '0'.toNat)

/-- The exponent that a text consists of; none is zero. -/
def exponent? : List Char → Option Int
  | [] => some 0
  | mark :: rest =>
      if mark = 'e' || mark = 'E' then
        let (negative, rest) := takeSign rest
        match spanAscii rest with
        | (digits, []) =>
            if digits.isEmpty then none
            else
              let size : Int := asciiNumber digits
              some (if negative then -size else size)
        | _ => none
      else none

/-- A number without sign. -/
def unsigned? (negative : Bool) (chars : List Char) : Option Binary64 :=
  let word := chars.map Char.toLower
  if word = "inf".toList || word = "infinity".toList then some (.infinite negative)
  else if word = "nan".toList then some .nan
  else
    let (whole, rest) := spanAscii chars
    let (fraction, rest) := match rest with
      | '.' :: rest => spanAscii rest
      | _ => ([], rest)
    if whole.isEmpty && fraction.isEmpty then none
    else
      (exponent? rest).map fun power =>
        Binary64.ofDecimal negative (asciiNumber (whole ++ fraction)) (power - fraction.length)

/-- Read a floating-point number. -/
def readFloat? (text : String) : Option Binary64 := do
  let trimmed := Text.trimWhile isMargin text.toList
  let chars ← dropUnderscores false (asciiDigits trimmed)
  let (negative, chars) := takeSign chars
  unsigned? negative chars

end ApiCensus.Number
