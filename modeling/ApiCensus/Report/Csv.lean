import ApiCensus.Failure

/-!
# Comma-separated values

Writing and reading of records.  A field with a comma, a quote or a line feed is
written between quotes, with quotes inside of it doubled.  Writers differ in
whether a carriage return alone has the same effect, so this is a parameter of
writing.  Reading goes line by line: a quote opens a quoted field only at the start
of a field, text after the closing quote is added to the field, and a carriage
return outside quotes has to end its line.
-/

namespace ApiCensus.Csv

/-- The line feed ends a record. -/
def terminator : Char := '\n'

/-- Whether a character makes quotes necessary; a carriage return does for some
writers. -/
def needsQuotes (quotesReturns : Bool) (c : Char) : Bool :=
  c = ',' || c = '"' || c = terminator || (quotesReturns && c = '\r')

/-- A character inside quotes. -/
def doubleQuote (c : Char) : List Char :=
  if c = '"' then ['"', '"'] else [c]

/-- A field between quotes. -/
def quoteField (field : List Char) : List Char :=
  '"' :: field.flatMap doubleQuote ++ ['"']

/-- A written field. -/
def writeField (quotesReturns : Bool) (field : List Char) : List Char :=
  if field.any (needsQuotes quotesReturns) then quoteField field else field

/-- Written fields with commas between them. -/
def joinFields : List (List Char) → List Char
  | [] => []
  | [field] => field
  | field :: rest => field ++ ',' :: joinFields rest

/-- A written record, with its line feed. A single empty field is written as two
quotes, so that it can be told from no field at all. -/
def writeRecord (quotesReturns : Bool) (fields : List String) : List Char :=
  (match fields with
    | [""] => ['"', '"']
    | _ => joinFields (fields.map fun field => writeField quotesReturns field.toList)) ++
    [terminator]

/-- Written records. -/
def write (quotesReturns : Bool) (records : List (List String)) : String :=
  String.ofList (records.flatMap (writeRecord quotesReturns))

/-- Where reading stands inside a record. -/
inductive State
  | startRecord
  | startField
  | inField
  | inQuotes
  /-- After a quote inside quotes, which may close them or be the first of two. -/
  | afterQuote
  /-- After the end of a record, before the end of its line. -/
  | endRecord
deriving DecidableEq, Repr

/-- A record being read: the state, the characters of the field and the fields
before it, both last first. -/
structure Reading where
  state : State := .startRecord
  field : List Char := []
  fields : List (List Char) := []

namespace Reading

/-- Add a character to the field. -/
def push (reading : Reading) (state : State) (c : Char) : Reading :=
  { reading with state, field := c :: reading.field }

/-- End the field. -/
def save (reading : Reading) (state : State) : Reading :=
  ⟨state, [], reading.field.reverse :: reading.fields⟩

/-- Read a character at the start of a field. -/
def feedStart (reading : Reading) (c : Char) : Reading :=
  if c = '\n' || c = '\r' then reading.save .endRecord
  else if c = '"' then { reading with state := .inQuotes }
  else if c = ',' then reading.save .startField
  else reading.push .inField c

/-- Read a character; none is allowed after a record but those that end a line. -/
def feed? (reading : Reading) (c : Char) : Option Reading :=
  match reading.state with
  | .startRecord =>
      if c = '\n' || c = '\r' then some { reading with state := .endRecord }
      else some (reading.feedStart c)
  | .startField => some (reading.feedStart c)
  | .inField =>
      if c = '\n' || c = '\r' then some (reading.save .endRecord)
      else if c = ',' then some (reading.save .startField)
      else some (reading.push .inField c)
  | .inQuotes =>
      if c = '"' then some { reading with state := .afterQuote }
      else some (reading.push .inQuotes c)
  | .afterQuote =>
      if c = '"' then some (reading.push .inQuotes c)
      else if c = ',' then some (reading.save .startField)
      else if c = '\n' || c = '\r' then some (reading.save .endRecord)
      else some (reading.push .inField c)
  | .endRecord => if c = '\n' || c = '\r' then some reading else none

/-- Read the characters of a line. -/
def feedLine? (reading : Reading) : List Char → Option Reading
  | [] => some reading
  | c :: rest => (reading.feed? c).bind fun next => feedLine? next rest

/-- Come to the end of a line. Inside quotes the record goes on. -/
def endLine (reading : Reading) : Reading :=
  match reading.state with
  | .startRecord | .inQuotes => reading
  | .startField | .inField | .afterQuote => reading.save .startRecord
  | .endRecord => { reading with state := .startRecord }

end Reading

/-- The longest field that is read. -/
def fieldLimit : Nat := 131072

/-- The fields of a record that is complete. -/
def Reading.record (reading : Reading) : Except Failure (List String) :=
  if reading.fields.any fun field => field.length > fieldLimit then .error .csv
  else .ok (reading.fields.reverse.map String.ofList)

/-- The lines of a text, each with its line feed; the last may lack one. -/
def lines : List Char → List (List Char)
  | [] => []
  | c :: rest =>
      if c = terminator then [c] :: lines rest
      else
        match lines rest with
        | [] => [[c]]
        | line :: more => (c :: line) :: more

/-- Read records from lines, up to the first that is malformed. -/
def readLines (reading : Reading) : List (List Char) → List (Except Failure (List String))
  | [] =>
      if reading.state = .inQuotes || !reading.field.isEmpty then
        [(reading.save .startRecord).record]
      else []
  | line :: rest =>
      match reading.feedLine? line with
      | none => [.error .csv]
      | some reading =>
          let reading := reading.endLine
          if reading.state = .startRecord then
            match reading.record with
            | .ok record => .ok record :: readLines {} rest
            | .error cause => [.error cause]
          else readLines reading rest

/-- Read records. -/
def read (text : String) : List (Except Failure (List String)) :=
  readLines {} (lines text.toList)

end ApiCensus.Csv
