import ApiCensus.Failure

/-!
# Places in a YAML text

A cursor holds the characters that are left and the line and column reached.
Reading functions are written in the monad `Scan`, which moves a cursor and may
fail.  The end of the text is shown as the null character, which no YAML text
contains.
-/

namespace ApiCensus.Yaml

/-- A place in a text. -/
structure Cursor where
  rest : List Char
  index : Nat := 0
  line : Nat := 0
  column : Nat := 0

/-- Reading that moves a cursor and may fail. -/
abbrev Scan := StateT Cursor (Except Failure)

/-- The mark of the end of the text. -/
def endMark : Char := '\x00'

/-- The line breaks. -/
def isBreak (c : Char) : Bool :=
  c = '\n' || c = '\r' || c = '\x85' || c = '\u2028' || c = '\u2029'

/-- A line break or the end of the text. -/
def isBreakOrEnd (c : Char) : Bool :=
  isBreak c || c = endMark

/-- A blank, a line break or the end of the text. -/
def isSpaceOrEnd (c : Char) : Bool :=
  c = ' ' || isBreakOrEnd c

/-- A blank, a tab, a line break or the end of the text. -/
def isWhiteOrEnd (c : Char) : Bool :=
  c = '\t' || isSpaceOrEnd c

/-- The characters of names of anchors, directives and tag handles. -/
def isWordChar (c : Char) : Bool :=
  c.isAlphanum || c = '-' || c = '_'

/-- Characters that may stand in a YAML text. -/
def isPermitted (c : Char) : Bool :=
  let code := c.toNat
  code == 9 || code == 10 || code == 13 || (0x20 ≤ code && code ≤ 0x7e) || code == 0x85 ||
    (0xa0 ≤ code && code ≤ 0xfffd) || 0x10000 ≤ code

namespace Cursor

/-- Move over one character. The byte order mark takes no column. -/
def next (cursor : Cursor) : Cursor :=
  match cursor.rest with
  | [] => cursor
  | c :: rest =>
      let breaks := isBreak c && !(c = '\r' && rest.head? = some '\n')
      if breaks then ⟨rest, cursor.index + 1, cursor.line + 1, 0⟩
      else
        ⟨rest, cursor.index + 1, cursor.line,
          if c = '\ufeff' then cursor.column else cursor.column + 1⟩

/-- Move over several characters. -/
def skip (cursor : Cursor) : (count : Nat) → Cursor
  | 0 => cursor
  | count + 1 => cursor.next.skip count

/-- The character at a distance. -/
def peekAt (cursor : Cursor) (offset : Nat) : Char :=
  (cursor.rest[offset]?).getD endMark

end Cursor

/-- Stop because the text is no YAML. -/
def malformed : Scan α :=
  throw .yaml

/-- The character at a distance. -/
def peekAt (offset : Nat) : Scan Char := do
  return (← get).peekAt offset

/-- The next character. -/
def peek : Scan Char :=
  peekAt 0

/-- Move over characters. -/
def skip (count : Nat) : Scan Unit :=
  modify (·.skip count)

/-- Read the characters up to the first that does not satisfy a condition. The end
of the text satisfies none. -/
def takeWhile (accept : Char → Bool) : Scan (List Char) := do
  let taken := (← get).rest.takeWhile accept
  skip taken.length
  return taken

/-- Skip blanks. -/
def skipBlanks : Scan Unit := do
  let _ ← takeWhile (· = ' ')

/-- Skip a comment, if one stands here. -/
def skipComment : Scan Unit := do
  if (← peek) = '#' then
    let _ ← takeWhile (!isBreak ·)

/-- Read a line break, if there is one. All but the Unicode separators are read
as line feeds. -/
def lineBreak : Scan (List Char) := do
  let c ← peek
  if c = '\r' && (← peekAt 1) = '\n' then
    skip 2
    return ['\n']
  else if c = '\n' || c = '\r' || c = '\x85' then
    skip 1
    return ['\n']
  else if c = '\u2028' || c = '\u2029' then
    skip 1
    return [c]
  else return []

/-- Whether a document marker stands here. -/
def atMarker : Scan Bool := do
  let start := (← get).rest.take 3
  return (start = ['-', '-', '-'] || start = ['.', '.', '.']) && isWhiteOrEnd (← peekAt 3)

/-- Require a character of a class to come next. -/
def expect (accept : Char → Bool) : Scan Unit := do
  unless accept (← peek) do malformed

/-- The number of steps that reading the rest can take. -/
def fuelLeft : Scan Nat := do
  return (← get).rest.length + 1

end ApiCensus.Yaml
