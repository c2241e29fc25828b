import ApiCensus.Failure
import ApiCensus.Number.Floating
import ApiCensus.Text.Search

/-!
# Types of YAML scalars

A plain scalar without a tag has the type that its text shows: a truth value, an
integer in one of five spellings, a floating-point number, a date or time, null,
or else text.
-/

namespace ApiCensus.Yaml

/-- The types of nodes. -/
inductive Tag
  | null
  | bool
  | int
  | float
  | moment
  | text
  | merge
  | defaultValue
  | sequence
  | mapping
  | unknown
deriving DecidableEq

/-- The common part of the names of the standard types. -/
def standardTag : String := "tag:yaml.org,2002:"

/-- The names of the standard types. -/
def tagNames : List (String × Tag) :=
  [("null", .null), ("bool", .bool), ("int", .int), ("float", .float), ("timestamp", .moment),
    ("str", .text), ("merge", .merge), ("value", .defaultValue), ("seq", .sequence),
    ("map", .mapping)]

/-- The type of a full name. -/
def Tag.ofName (name : String) : Tag :=
  ((tagNames.find? fun entry => standardTag ++ entry.1 == name).map (·.2)).getD .unknown

/-! ### Truth values and null -/

/-- The words for truth values. -/
def truthWords : List (String × Bool) :=
  [("yes", true), ("no", false), ("true", true), ("false", false), ("on", true), ("off", false)]

/-- A word in lower case, with a capital or in capitals. -/
def spellings (word : String) : List String :=
  [word, word.capitalize, word.toUpper]

/-- Whether the text is a truth value. -/
def isTruthWord (text : String) : Bool :=
  truthWords.any fun entry => (spellings entry.1).contains text

/-- Whether the text is null. -/
def isNullWord (text : String) : Bool :=
  ["", "~", "null", "Null", "NULL"].contains text

/-! ### Numbers -/

/-- Drop a sign. -/
def dropSign : List Char → List Char
  | '+' :: rest => rest
  | '-' :: rest => rest
  | chars => chars

/-- A digit or an underscore. -/
def isDigitOrGap (c : Char) : Bool :=
  c.isDigit || c = '_'

/-- A digit and then digits and underscores. -/
def isWhole : List Char → Bool
  | [] => false
  | c :: rest => c.isDigit && rest.all isDigitOrGap

/-- The parts of a text between colons. -/
def colonParts (chars : List Char) : List (List Char) :=
  Text.splitAt ':' chars

/-- A number below sixty, in one or two digits. -/
def isSixtieth : List Char → Bool
  | [c] => c.isDigit
  | [c, d] => '0' ≤ c && c ≤ '5' && d.isDigit
  | _ => false

/-- A whole number followed by one or more sixtieths. -/
def isSexagesimal (chars : List Char) : Bool :=
  match colonParts chars with
  | first :: second :: rest => isWhole first && (second :: rest).all isSixtieth
  | _ => false

/-- A nonempty run of characters of a class. -/
def isRunOf (accept : Char → Bool) (chars : List Char) : Bool :=
  !chars.isEmpty && chars.all accept

/-- Whether the text is an integer. -/
def isInteger (text : String) : Bool :=
  let chars := dropSign text.toList
  match chars with
  | ['0'] => true
  | '0' :: 'b' :: rest => isRunOf (fun c => c = '0' || c = '1' || c = '_') rest
  | '0' :: 'x' :: rest => isRunOf (fun c => (Text.hexValue? c).isSome || c = '_') rest
  | '0' :: rest => rest.all fun c => ('0' ≤ c && c ≤ '7') || c = '_'
  | _ => isWhole chars || isSexagesimal chars

/-- Nothing, or an exponent with a sign. -/
def isExponent : List Char → Bool
  | [] => true
  | mark :: sign :: digits =>
      (mark = 'e' || mark = 'E') && (sign = '+' || sign = '-') && isRunOf Char.isDigit digits
  | [_] => false

/-- Digits and underscores, and then nothing or an exponent. -/
def isFraction (chars : List Char) : Bool :=
  isExponent (chars.dropWhile isDigitOrGap)

/-- Whether the text is a floating-point number. -/
def isFloating (text : String) : Bool :=
  let chars := text.toList
  let unsigned := dropSign chars
  let whole := unsigned.takeWhile (· != '.')
  match unsigned.dropWhile (· != '.') with
  | [] => false
  | _ :: fraction =>
      (isWhole whole && isFraction fraction) ||
      (isSexagesimal whole && fraction.all isDigitOrGap) ||
      (whole.isEmpty && ["inf", "Inf", "INF"].contains (String.ofList fraction)) ||
      (chars.head? = some '.' &&
        (["nan", "NaN", "NAN"].contains (String.ofList fraction) ||
          (fraction.head?.any Char.isDigit && isFraction fraction)))

/-- The first character's sign, and the text without underscores and sign. -/
def signed (text : String) : Except Failure (Bool × String) :=
  match text.toList.filter (· != '_') with
  | [] => throw (.shape .missingPosition)
  | c :: rest => return (c = '-', String.ofList (if c = '+' || c = '-' then rest else c :: rest))

/-- The value of digits in base sixty, the highest first. -/
def ofSixtieths (digits : List Int) : Int :=
  digits.foldl (fun total digit => total * 60 + digit) 0

/-- The integer of a text without sign. -/
def unsignedInteger (text : String) : Except Failure Int := do
  match text.toList with
  | [] => throw (.shape .missingPosition)
  | '0' :: 'b' :: rest => Number.readIntegerIn 2 (String.ofList rest)
  | '0' :: 'x' :: rest => Number.readIntegerIn 16 (String.ofList rest)
  | '0' :: _ => Number.readIntegerIn 8 text
  | chars =>
      if chars.contains ':' then
        return ofSixtieths
          (← (colonParts chars).mapM fun part => Number.readInteger (String.ofList part))
      else Number.readInteger text

/-- The integer of a text. -/
def integer (text : String) : Except Failure Int := do
  let (negative, text) ← signed text
  let size ← unsignedInteger text
  return if negative then -size else size

/-- The floating-point number of a text. -/
def readFloating (text : String) : Except Failure Binary64 :=
  match Number.readFloat? text with
  | some number => .ok number
  | none => .error (.invalid (.floating text))

/-- The sum of digits in base sixty, the lowest first, added up from the lowest. -/
def sumSixtieths : (place : Int) → (total : Binary64) → List Binary64 → Binary64
  | _, total, [] => total
  | place, total, digit :: rest =>
      sumSixtieths (place * 60) (total.add (digit.mul (Binary64.ofInt place))) rest

/-- The floating-point number of a text without sign. -/
def unsignedFloating (text : String) : Except Failure Binary64 := do
  if text = ".inf" then return .infinite false
  else if text = ".nan" then return .nan
  else if text.toList.contains ':' then
    let digits ← (colonParts text.toList).mapM fun part => readFloating (String.ofList part)
    return sumSixtieths 1 (Binary64.zero false) digits.reverse
  else readFloating text

/-- The floating-point number of a text. -/
def floating (text : String) : Except Failure Binary64 := do
  let (negative, text) ← signed text
  let size ← unsignedFloating text.toLower
  return if negative then size.neg else size

/-! ### Dates and times -/

/-- The numbers of a date or time as they are written. -/
structure Stamp where
  year : List Char
  month : List Char
  day : List Char
  time : Option (Nat × Nat × Nat × Nat) := none
  offset : Option Int := none

/-- Between `least` and `most` leading digits, as many as there are, and the rest. -/
def digitSpan? (least most : Nat) (chars : List Char) : Option (List Char × List Char) :=
  let digits := (chars.take most).takeWhile Char.isDigit
  if digits.length < least then none else some (digits, chars.drop digits.length)

/-- Drop a character. -/
def dropChar? (expected : Char) : List Char → Option (List Char)
  | [] => none
  | c :: rest => if c = expected then some rest else none

/-- What divides a date from a time. -/
def dropDivider? : List Char → Option (List Char)
  | 'T' :: rest => some rest
  | 't' :: rest => some rest
  | chars =>
      let rest := chars.dropWhile fun c => c = ' ' || c = '\t'
      if rest.length < chars.length then some rest else none

/-- The microseconds of the digits of a fraction of a second. -/
def microseconds (fraction : List Char) : Nat :=
  let digits := fraction.take 6
  Number.asciiNumber (digits ++ List.replicate (6 - digits.length) '0')

/-- A fraction of a second, if there is one, and the rest. -/
def fractionOf : List Char → Nat × List Char
  | '.' :: rest => (microseconds (rest.takeWhile Char.isDigit), rest.dropWhile Char.isDigit)
  | chars => (0, chars)

/-- The offset from universal time that a text consists of. -/
def offset? (chars : List Char) : Option (Option Int) :=
  if chars.isEmpty then some none
  else
    match chars.dropWhile fun c => c = ' ' || c = '\t' with
    | ['Z'] => some (some 0)
    | sign :: rest => do
        guard (sign = '+' || sign = '-')
        let (hours, rest) ← digitSpan? 1 2 rest
        let minutes ← match rest with
          | [] => some []
          | _ => do
              let (minutes, rest) ← digitSpan? 2 2 (← dropChar? ':' rest)
              guard rest.isEmpty
              some minutes
        let size : Int := Number.asciiNumber hours * 60 + Number.asciiNumber minutes
        return some (if sign = '-' then -size else size)
    | [] => none

/-- A date, or a date and a time. -/
def stamp? (text : String) : Option Stamp := do
  let (year, rest) ← digitSpan? 4 4 text.toList
  let (month, rest) ← digitSpan? 1 2 (← dropChar? '-' rest)
  let (day, rest) ← digitSpan? 1 2 (← dropChar? '-' rest)
  let date : Stamp := { year, month, day }
  if rest.isEmpty then return date
  let (hour, rest) ← digitSpan? 1 2 (← dropDivider? rest)
  let (minute, rest) ← digitSpan? 2 2 (← dropChar? ':' rest)
  let (second, rest) ← digitSpan? 2 2 (← dropChar? ':' rest)
  let (micro, rest) := fractionOf rest
  let offset ← offset? rest
  let number := Number.asciiNumber
  return { date with time := some (number hour, number minute, number second, micro), offset }

/-- Whether the text is a date or time. A date alone has two digits for the month
and two for the day. -/
def isStamp (text : String) : Bool :=
  match stamp? text with
  | none => false
  | some stamp => stamp.time.isSome || (stamp.month.length = 2 && stamp.day.length = 2)

/-- The date or time of a text. -/
def dateOrTime (text : String) : Except Failure Moment := do
  let some stamp := stamp? text | throw (.shape .noParts)
  let number := Number.asciiNumber
  let year := number stamp.year
  let month := number stamp.month
  let day := number stamp.day
  let result := match stamp.time with
    | none => Moment.ofDate year month day
    | some (hour, minute, second, micro) =>
        Moment.ofTime year month day hour minute second micro stamp.offset
  match result with
  | .ok instant => return instant
  | .error cause => throw (.invalid (.moment cause))

/-! ### Types by text -/

/-- The type that a plain text shows. -/
def Tag.ofPlain (text : String) : Tag :=
  if isTruthWord text then .bool
  else if isFloating text then .float
  else if isInteger text then .int
  else if text = "<<" then .merge
  else if isNullWord text then .null
  else if isStamp text then .moment
  else if text = "=" then .defaultValue
  else .text

/-- The truth value of a word in any case. -/
def truth (text : String) : Except Failure Bool :=
  match truthWords.find? fun entry => entry.1 == text.toLower with
  | some entry => .ok entry.2
  | none => .error (.shape .missingKey)

/-- The scalar of a type that is written as a text. -/
def Tag.scalar (tag : Tag) (text : String) : Except Failure Scalar :=
  match tag with
  | .null => .ok .null
  | .bool => .bool <$> truth text
  | .int => .int <$> integer text
  | .float => .float <$> floating text
  | .moment => .moment <$> dateOrTime text
  | .text => .ok (.text text)
  | .merge | .defaultValue | .sequence | .mapping | .unknown => .error .yaml

end ApiCensus.Yaml
