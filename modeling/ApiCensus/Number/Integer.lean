import ApiCensus.Text.Blank
import ApiCensus.Text.Digit
import ApiCensus.Text.Quoted

/-!
# Integers as text

An integer is read from decimal digits of any script, with an optional sign, blanks
around it and single underscores between digits, and it is written with ASCII digits.
Numerals of more than 4300 digits are neither read nor written.
-/

namespace ApiCensus.Number

/-- The most digits a numeral may have. -/
def maxDigits : Nat := 4300

/-- Why a text is not read as an integer, or an integer not written. -/
inductive IntegerError
  | malformed (base : Nat) (text : String)
  | tooManyDigits (count : Nat)
  | unwritable
deriving DecidableEq, Repr

/-- The wording of an integer error; a long text is shown by the first 200
characters of its quoted form. -/
def IntegerError.message : IntegerError → String
  | .malformed base text =>
      let shown := String.ofList ((Text.quoted text).toList.take 200)
      s!"invalid literal for int() with base {base}: {shown}"
  | .tooManyDigits count =>
      s!"Exceeds the limit ({maxDigits} digits) for integer string conversion: " ++
        s!"value has {count} digits; use sys.set_int_max_str_digits() to increase the limit"
  | .unwritable =>
      s!"Exceeds the limit ({maxDigits} digits) for integer string conversion; " ++
        "use sys.set_int_max_str_digits() to increase the limit"

/-- Blanks that may surround an integer: all but the information separators. -/
def isMargin (c : Char) : Bool :=
  Text.isBlank c && !(28 ≤ c.toNat && c.toNat ≤ 31)

/-- The number denoted by digit values, most significant first. -/
def ofDigits (base : Nat) (values : List Nat) : Nat :=
  values.foldl (fun total value => base * total + value) 0

/-- Split off the longest run of digits with single underscores between them.
`digit?` tells the value of a digit, `separated` whether an underscore may
follow, and `done` holds the values read so far, last first. -/
def digitRun (digit? : Char → Option Nat) :
    (separated : Bool) → (done : List Nat) → List Char → Option (List Nat × List Char)
  | separated, done, [] => if separated then some (done.reverse, []) else none
  | separated, done, c :: rest =>
      match digit? c with
      | some value => digitRun digit? true (value :: done) rest
      | none =>
          if c = '_' then
            if separated then digitRun digit? false done rest else none
          else if separated then some (done.reverse, c :: rest) else none

/-- A leading sign, as whether it is a minus, and what follows it. -/
def takeSign : List Char → Bool × List Char
  | '-' :: rest => (true, rest)
  | '+' :: rest => (false, rest)
  | chars => (false, chars)

/-- The value of a digit of a base. -/
def digitIn? (base : Nat) (c : Char) : Option Nat :=
  let value? := match Text.decimalValue? c with
    | some value => some value
    | none =>
        let lower := c.toLower
        if 'a' ≤ lower && lower ≤ 'z' then some (lower.toNat - 'a'.toNat + 10) else none
  value?.filter (· < base)

/-- The letter that marks the integers of a base. -/
def baseMark? : (base : Nat) → Option Char
  | 2 => some 'b'
  | 8 => some 'o'
  | 16 => some 'x'
  | _ => none

/-- Drop a zero and the mark of the base, and an underscore after them. -/
def dropBaseMark (base : Nat) (chars : List Char) : List Char :=
  match chars with
  | '0' :: mark :: rest =>
      if baseMark? base = some mark.toLower then
        match rest with
        | '_' :: rest => rest
        | _ => rest
      else chars
  | _ => chars

/-- Read an integer of a base. The limit on digits concerns only bases that are
no power of two. -/
def readIntegerIn (base : Nat) (text : String) : Except IntegerError Int :=
  let (negative, chars) := takeSign (Text.trimWhile isMargin text.toList)
  let chars := dropBaseMark base chars
  match digitRun (digitIn? base) false [] chars with
  | none => .error (.malformed base text)
  | some (values, rest) =>
      if base = 10 && values.length > maxDigits then .error (.tooManyDigits values.length)
      else if rest.isEmpty then
        let value : Int := ofDigits base values
        .ok (if negative then -value else value)
      else .error (.malformed base text)

/-- Read a decimal integer. -/
def readInteger (text : String) : Except IntegerError Int :=
  readIntegerIn 10 text

/-- Write a decimal integer. -/
def writeInteger (number : Int) : Except IntegerError String :=
  if number.natAbs < Nat.pow 10 maxDigits then .ok (toString number) else .error .unwritable

end ApiCensus.Number
