import ApiCensus.Number.Integer
import ApiCensus.Value.Basic

/-!
# Reading JSON

A text is read into a `Value`.  Besides JSON proper, `NaN`, `Infinity` and
`-Infinity` are numbers.  Of several entries with one key the last value counts,
in the place of the first.  A syntax error tells what was expected and where.
Reading a list or a record takes room on a stack, so that brackets may be nested
to a limit only.  A half of a surrogate pair without its partner is not a
character: all of them are read as the replacement character.

Every reading function takes the characters that are left and returns those that
remain, so that a place in the text is known by the number of characters after
it.
-/

namespace ApiCensus.Json

open Text Number

/-- What is wrong with a text. -/
inductive Fault
  | expectedValue
  | expectedName
  | expectedColon
  | expectedComma
  | unterminatedString
  | controlCharacter
  | invalidEscape
  | invalidUnicodeEscape
  | extraData
  | byteOrderMark
deriving DecidableEq, Repr

/-- The wording of a fault. -/
def Fault.text : Fault → String
  | .expectedValue => "Expecting value"
  | .expectedName => "Expecting property name enclosed in double quotes"
  | .expectedColon => "Expecting ':' delimiter"
  | .expectedComma => "Expecting ',' delimiter"
  | .unterminatedString => "Unterminated string starting at"
  | .controlCharacter => "Invalid control character at"
  | .invalidEscape => "Invalid \\escape"
  | .invalidUnicodeEscape => "Invalid \\uXXXX escape"
  | .extraData => "Extra data"
  | .byteOrderMark => "Unexpected UTF-8 BOM (decode using utf-8-sig)"

/-- A fault and its place: the number of characters before it, its line and its
column. -/
structure SyntaxError where
  fault : Fault
  position : Nat
  line : Nat
  column : Nat
deriving DecidableEq, Repr

/-- The wording of a syntax error. -/
def SyntaxError.message (error : SyntaxError) : String :=
  s!"{error.fault.text}: line {error.line} column {error.column} (char {error.position})"

/-- Why a text is not read as a value. -/
inductive ReadError
  | malformed (cause : SyntaxError)
  | integer (cause : IntegerError)
  /-- More brackets are open at once than there is room for. -/
  | tooDeep
deriving DecidableEq, Repr

/-- Why reading stopped; a fault is placed by the characters from there on. -/
inductive Stop
  | fault (cause : Fault) (rest : List Char)
  | integer (cause : IntegerError)
  | tooDeep

/-- How many brackets may be open at once. -/
def maxDepth : Nat := 989

/-- The blanks of JSON. -/
def isSpace (c : Char) : Bool :=
  c = ' ' || c = '\t' || c = '\n' || c = '\r'

/-- The text without leading blanks. -/
def skipSpace (chars : List Char) : List Char :=
  chars.dropWhile isSpace

/-- What follows a word that the text starts with. -/
def dropWord? : (word chars : List Char) → Option (List Char)
  | [], chars => some chars
  | _ :: _, [] => none
  | expected :: word, c :: chars => if expected = c then dropWord? word chars else none

/-- The character of an escape with a single letter. -/
def simpleEscape? : Char → Option Char
  | '"' => some '"'
  | '\\' => some '\\'
  | '/' => some '/'
  | 'b' => some '\x08'
  | 'f' => some '\x0c'
  | 'n' => some '\n'
  | 'r' => some '\r'
  | 't' => some '\t'
  | _ => none

/-- The character of a code point; a surrogate without partner is shown by the
replacement character. -/
def charOfUnit (code : Nat) : Char :=
  if 0xd800 ≤ code && code ≤ 0xdfff then '\ufffd' else Char.ofNat code

/-- The unit denoted by four hexadecimal digits, which must not end the text,
and what follows them. -/
def readUnit? : List Char → Option (Nat × List Char)
  | one :: two :: three :: four :: c :: rest =>
      (hexNumber? [one, two, three, four]).map fun code => (code, c :: rest)
  | _ => none

/-- The second half of a surrogate pair, if one follows. An escape after a first
half has to be well formed. -/
def readPartner (chars : List Char) : Except Stop (Option (Nat × List Char)) :=
  match chars with
  | '\\' :: 'u' :: one :: two :: three :: four :: c :: rest =>
      match hexNumber? [one, two, three, four] with
      | none => .error (.fault .invalidUnicodeEscape
          ('u' :: one :: two :: three :: four :: c :: rest))
      | some code =>
          if 0xdc00 ≤ code && code ≤ 0xdfff then .ok (some (code, c :: rest)) else .ok none
  | _ => .ok none

/-- Read the digits of a Unicode escape whose letter starts `chars`. -/
def readUnicodeEscape (chars : List Char) : Except Stop (Char × List Char) :=
  match readUnit? (chars.drop 1) with
  | none => .error (.fault .invalidUnicodeEscape chars)
  | some (code, rest) =>
      if 0xd800 ≤ code && code ≤ 0xdbff then do
        match ← readPartner rest with
        | some (low, rest) =>
            return (Char.ofNat (0x10000 + (code - 0xd800) * 0x400 + (low - 0xdc00)), rest)
        | none => return (charOfUnit code, rest)
      else .ok (charOfUnit code, rest)

/-- Read the rest of a string. `start` is the text from the opening quote on and
`done` the characters read so far, last first; `fuel` bounds their number. -/
def readString (start : List Char) :
    (fuel : Nat) → (done : List Char) → List Char → Except Stop (String × List Char)
  | 0, _, _ => .error (.fault .unterminatedString start)
  | fuel + 1, done, chars =>
      match chars with
      | [] => .error (.fault .unterminatedString start)
      | '"' :: rest => .ok (String.ofList done.reverse, rest)
      | '\\' :: rest =>
          match rest with
          | [] => .error (.fault .unterminatedString start)
          | 'u' :: _ => do
              let (c, rest) ← readUnicodeEscape rest
              readString start fuel (c :: done) rest
          | letter :: after =>
              match simpleEscape? letter with
              | some c => readString start fuel (c :: done) after
              | none => .error (.fault .invalidEscape chars)
      | c :: rest =>
          if c.toNat < 32 then .error (.fault .controlCharacter chars)
          else readString start fuel (c :: done) rest

/-- The leading ASCII digits and what follows them. -/
def spanDigits (chars : List Char) : List Char × List Char :=
  (chars.takeWhile Char.isDigit, chars.dropWhile Char.isDigit)

/-- The number denoted by ASCII digits. -/
def digitsValue (digits : List Char) : Nat :=
  ofDigits 10 (digits.map fun c => c.toNat - '0'.toNat)

/-- The whole part of a number: a zero, or digits that start with no zero. -/
def spanWhole? : List Char → Option (List Char × List Char)
  | '0' :: rest => some (['0'], rest)
  | chars =>
      let (digits, rest) := spanDigits chars
      if digits.isEmpty then none else some (digits, rest)

/-- The digits after a decimal point, if there are any. -/
def spanFraction : List Char → List Char × List Char
  | '.' :: rest =>
      let (digits, after) := spanDigits rest
      if digits.isEmpty then ([], '.' :: rest) else (digits, after)
  | chars => ([], chars)

/-- A decimal exponent, if there is one. -/
def spanExponent? (chars : List Char) : Option (Int × List Char) :=
  match chars with
  | [] => none
  | mark :: rest =>
      if mark = 'e' || mark = 'E' then
        let (negative, rest) := takeSign rest
        let (digits, after) := spanDigits rest
        if digits.isEmpty then none
        else
          let size : Int := digitsValue digits
          some (if negative then -size else size, after)
      else none

/-- Read a number. Without fraction and exponent it is an integer. -/
def readNumber (chars : List Char) : Except Stop (Value × List Char) :=
  let (negative, unsigned) := match chars with
    | '-' :: rest => (true, rest)
    | _ => (false, chars)
  match spanWhole? unsigned with
  | none => .error (.fault .expectedValue chars)
  | some (whole, rest) =>
      let (fraction, rest) := spanFraction rest
      match fraction, spanExponent? rest with
      | [], none =>
          if whole.length > maxDigits then .error (.integer (.tooManyDigits whole.length))
          else
            let value : Int := digitsValue whole
            .ok (.int (if negative then -value else value), rest)
      | _, exponent =>
          let (power, rest) := exponent.getD (0, rest)
          let number := Binary64.ofDecimal negative (digitsValue (whole ++ fraction))
            (power - fraction.length)
          .ok (.float number, rest)

/-- The words that stand for a value. -/
def words : List (String × Value) :=
  [("null", .null), ("true", .bool true), ("false", .bool false), ("NaN", .float .nan),
    ("Infinity", .float (.infinite false)), ("-Infinity", .float (.infinite true))]

/-- Read a word that stands for a value, or a number. -/
def readAtom (chars : List Char) : Except Stop (Value × List Char) :=
  let word? := words.findSome? fun (word, value) =>
    (dropWord? word.toList chars).map fun rest => (value, rest)
  match word? with
  | some result => .ok result
  | none => readNumber chars

mutual

/-- Read a value; `fuel` bounds the number of steps, and `depth` is the room for
further brackets. -/
def readValue : (fuel depth : Nat) → List Char → Except Stop (Value × List Char)
  | 0, _, chars => .error (.fault .expectedValue chars)
  | fuel + 1, depth, chars =>
      match chars with
      | '"' :: rest => do
          let (content, rest) ← readString chars chars.length [] rest
          return (.text content, rest)
      | '[' :: rest =>
          match depth, skipSpace rest with
          | 0, _ => .error .tooDeep
          | _ + 1, ']' :: rest => .ok (.list [], rest)
          | depth + 1, rest => readElements fuel depth [] rest
      | '\x7b' :: rest =>
          match depth, skipSpace rest with
          | 0, _ => .error .tooDeep
          | _ + 1, '\x7d' :: rest => .ok (.record [], rest)
          | depth + 1, rest => readEntries fuel depth [] rest
      | _ => readAtom chars

/-- Read the elements of a list; `done` holds those already read, last first. -/
def readElements : (fuel depth : Nat) → (done : List Value) → List Char →
    Except Stop (Value × List Char)
  | 0, _, _, chars => .error (.fault .expectedValue chars)
  | fuel + 1, depth, done, chars => do
      let (value, rest) ← readValue fuel depth chars
      match skipSpace rest with
      | ']' :: rest => return (.list (value :: done).reverse, rest)
      | ',' :: rest => readElements fuel depth (value :: done) (skipSpace rest)
      | rest => .error (.fault .expectedComma rest)

/-- Read the entries of a record; `done` holds those already read. -/
def readEntries : (fuel depth : Nat) → (done : List (Scalar × Value)) → List Char →
    Except Stop (Value × List Char)
  | 0, _, _, chars => .error (.fault .expectedValue chars)
  | fuel + 1, depth, done, chars =>
      match chars with
      | '"' :: rest => do
          let (name, rest) ← readString chars chars.length [] rest
          match skipSpace rest with
          | ':' :: rest =>
              let (value, rest) ← readValue fuel depth (skipSpace rest)
              let done := Value.put (.text name) value done
              match skipSpace rest with
              | '\x7d' :: rest => return (.record done, rest)
              | ',' :: rest => readEntries fuel depth done (skipSpace rest)
              | rest => .error (.fault .expectedComma rest)
          | rest => .error (.fault .expectedColon rest)
      | _ => .error (.fault .expectedName chars)

end

/-- The fault with the line and column of its place. -/
def placed (text : List Char) (fault : Fault) (rest : List Char) : SyntaxError :=
  let position := text.length - rest.length
  let before := text.take position
  let line := (before.filter (· = '\n')).length + 1
  let column := (before.reverse.takeWhile (· != '\n')).length + 1
  ⟨fault, position, line, column⟩

/-- Read a whole text: one value with blanks around it. -/
def readChars (chars : List Char) : Except Stop Value :=
  match chars with
  | '\ufeff' :: _ => .error (.fault .byteOrderMark chars)
  | _ => do
      let (value, rest) ← readValue (2 * chars.length + 1) maxDepth (skipSpace chars)
      match skipSpace rest with
      | [] => return value
      | rest => .error (.fault .extraData rest)

/-- Read a JSON text. -/
def read (text : String) : Except ReadError Value :=
  let chars := text.toList
  match readChars chars with
  | .ok value => .ok value
  | .error (.fault fault rest) => .error (.malformed (placed chars fault rest))
  | .error (.integer cause) => .error (.integer cause)
  | .error .tooDeep => .error .tooDeep

end ApiCensus.Json
