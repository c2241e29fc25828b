import ApiCensus.Value.Basic

/-!
# Writing JSON

The compact one-line form of a value: entries sorted by key, a blank after commas
and colons, and every character outside printable ASCII escaped by its UTF-16
units.
-/

namespace ApiCensus.Json

open Text

/-- The escape of a UTF-16 unit. -/
def escapeUnit (code : Nat) : List Char :=
  '\\' :: 'u' :: hexDigits 4 code

/-- One character of a written string. -/
def writeChar (c : Char) : List Char :=
  let code := c.toNat
  if c = '"' || c = '\\' then ['\\', c]
  else if c = '\n' then ['\\', 'n']
  else if c = '\r' then ['\\', 'r']
  else if c = '\t' then ['\\', 't']
  else if code = 8 then ['\\', 'b']
  else if code = 12 then ['\\', 'f']
  else if 32 ≤ code && code < 127 then [c]
  else if code < 0x10000 then escapeUnit code
  else
    let high := 0xd800 + (code - 0x10000) / 0x400
    let low := 0xdc00 + (code - 0x10000) % 0x400
    escapeUnit high ++ escapeUnit low

/-- A written string. -/
def writeText (text : String) : String :=
  String.ofList ('"' :: text.toList.flatMap writeChar ++ ['"'])

/-- A written number; the numbers JSON lacks have names. -/
def writeNumber : Binary64 → String
  | .nan => "NaN"
  | .infinite negative => if negative then "-Infinity" else "Infinity"
  | number => number.text

/-- A written scalar. -/
def writeScalar : Scalar → String
  | .null => "null"
  | .bool truth => if truth then "true" else "false"
  | .int number => toString number
  | .float number => writeNumber number
  | .text content => writeText content
  | .moment instant => writeText instant.text

/-- Entries in ascending order of their keys. -/
def sortByKey (entries : List (String × String)) : List (String × String) :=
  entries.mergeSort fun left right => !decide (right.1 < left.1)

mutual

/-- A written value. -/
def write : Value → String
  | .scalar content => writeScalar content
  | .list elements => "[" ++ ", ".intercalate (writeList elements) ++ "]"
  | .record entries =>
      let fields := sortByKey (writeEntries entries)
      "\x7b" ++ ", ".intercalate (fields.map fun (key, value) => writeText key ++ ": " ++ value) ++
        "\x7d"

/-- The written elements of a list. -/
def writeList : List Value → List String
  | [] => []
  | value :: rest => write value :: writeList rest

/-- The keys and written values of the entries of a record. -/
def writeEntries : List (Scalar × Value) → List (String × String)
  | [] => []
  | (key, value) :: rest => (key.toText, write value) :: writeEntries rest

end

end ApiCensus.Json
