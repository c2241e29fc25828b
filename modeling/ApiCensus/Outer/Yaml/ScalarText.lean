import ApiCensus.Outer.Yaml.Cursor

/-!
# The text of YAML scalars

Quoted, plain and block scalars.  Line breaks inside quoted and plain scalars are
folded: a single one becomes a blank, of several the first is dropped.
-/

namespace ApiCensus.Yaml

/-- The folded form of a line break and the breaks that follow it. -/
def fold (first following : List Char) : List Char :=
  if first != ['\n'] then first ++ following
  else if following.isEmpty then [' ']
  else following

/-! ### Quoted scalars -/

/-- The character of an escape with a single letter. -/
def escapeLetter? : Char → Option Char
  | '0' => some '\x00'
  | 'a' => some '\x07'
  | 'b' => some '\x08'
  | 't' => some '\t'
  | '\t' => some '\t'
  | 'n' => some '\n'
  | 'v' => some '\x0b'
  | 'f' => some '\x0c'
  | 'r' => some '\r'
  | 'e' => some '\x1b'
  | ' ' => some ' '
  | '"' => some '"'
  | '\\' => some '\\'
  | '/' => some '/'
  | 'N' => some '\x85'
  | '_' => some '\xa0'
  | 'L' => some '\u2028'
  | 'P' => some '\u2029'
  | _ => none

/-- The number of hexadecimal digits of an escape by code point. -/
def escapeWidth? : Char → Option Nat
  | 'x' => some 2
  | 'u' => some 4
  | 'U' => some 8
  | _ => none

/-- The line breaks inside a quoted scalar, after the first; document markers must
not stand at the start of a line. -/
def quotedBreaks : (fuel : Nat) → (done : List Char) → Scan (List Char)
  | 0, _ => malformed
  | fuel + 1, done => do
      if ← atMarker then malformed
      let _ ← takeWhile fun c => c = ' ' || c = '\t'
      if isBreak (← peek) then quotedBreaks fuel (done ++ (← lineBreak))
      else return done

/-- The text of an escape after its backslash. -/
def escape : Scan (List Char) := do
  let c ← peek
  match escapeLetter? c, escapeWidth? c with
  | some meaning, _ =>
      skip 1
      return [meaning]
  | none, some width =>
      skip 1
      match Text.hexNumber? ((← get).rest.take width), decide (width ≤ (← get).rest.length) with
      | some code, true =>
          if code > 0x10ffff then throw (.invalid .codePoint)
          skip width
          return [if 0xd800 ≤ code && code ≤ 0xdfff then '\ufffd' else Char.ofNat code]
      | _, _ => malformed
  | none, none =>
      if isBreak c then
        let _ ← lineBreak
        quotedBreaks (← fuelLeft) []
      else malformed

/-- The characters of a quoted scalar up to a blank, a break or its closing quote. -/
def quotedRun (double : Bool) : (fuel : Nat) → (done : List Char) → Scan (List Char)
  | 0, _ => malformed
  | fuel + 1, done => do
      let run ← takeWhile fun c => !(c = '\'' || c = '"' || c = '\\' || isWhiteOrEnd c)
      let done := done ++ run
      let c ← peek
      if !double && c = '\'' && (← peekAt 1) = '\'' then
        skip 2
        quotedRun double fuel (done ++ [c])
      else if (double && c = '\'') || (!double && (c = '"' || c = '\\')) then
        skip 1
        quotedRun double fuel (done ++ [c])
      else if double && c = '\\' then
        skip 1
        quotedRun double fuel (done ++ (← escape))
      else return done

/-- The blanks and line breaks inside a quoted scalar. -/
def quotedSpaces : Scan (List Char) := do
  let blanks ← takeWhile fun c => c = ' ' || c = '\t'
  let c ← peek
  if c = endMark then malformed
  else if isBreak c then
    let first ← lineBreak
    return fold first (← quotedBreaks (← fuelLeft) [])
  else return blanks

/-- The rest of a quoted scalar and its closing quote. -/
def quotedRest (quote : Char) : (fuel : Nat) → (done : List Char) → Scan (List Char)
  | 0, _ => malformed
  | fuel + 1, done => do
      if (← peek) = quote then
        skip 1
        return done
      else
        let spaces ← quotedSpaces
        let run ← quotedRun (quote = '"') (← fuelLeft) []
        quotedRest quote fuel (done ++ spaces ++ run)

/-- A quoted scalar. -/
def quotedScalar : Scan String := do
  let quote ← peek
  skip 1
  let run ← quotedRun (quote = '"') (← fuelLeft) []
  return String.ofList (← quotedRest quote (← fuelLeft) run)

/-! ### Plain scalars -/

/-- The brackets and commas of flow collections. -/
def isFlowIndicator (c : Char) : Bool :=
  c = ',' || c = '[' || c = ']' || c = '\x7b' || c = '\x7d'

/-- Whether a plain scalar ends before `c`, which `following` follows. -/
def endsPlain (inFlow : Bool) (c following : Char) : Bool :=
  isWhiteOrEnd c ||
    (c = ':' && (isWhiteOrEnd following || (inFlow && isFlowIndicator following))) ||
    (inFlow && (isFlowIndicator c || c = '?'))

/-- The characters of a plain scalar up to its end or a blank. -/
def plainRun (inFlow : Bool) : List Char → List Char
  | [] => []
  | c :: rest =>
      if endsPlain inFlow c (rest.head?.getD endMark) then [] else c :: plainRun inFlow rest

/-- What stands between two runs of a plain scalar, and whether it crosses a line.
A document marker at the start of a line ends the scalar. -/
structure PlainGap where
  text : List Char
  crosses : Bool

/-- The line breaks inside a plain scalar, after the first; none if a document
marker follows. -/
def plainBreaks : (fuel : Nat) → (done : List Char) → Scan (Option (List Char))
  | 0, _ => malformed
  | fuel + 1, done => do
      skipBlanks
      if isBreak (← peek) then
        let done := done ++ (← lineBreak)
        if ← atMarker then return none
        plainBreaks fuel done
      else return some done

/-- The gap after a run of a plain scalar. -/
def plainGap : Scan PlainGap := do
  let blanks ← takeWhile (· = ' ')
  if isBreak (← peek) then
    let first ← lineBreak
    if ← atMarker then return ⟨[], true⟩
    match ← plainBreaks (← fuelLeft) [] with
    | none => return ⟨[], true⟩
    | some following => return ⟨fold first following, true⟩
  else return ⟨blanks, false⟩

/-- The runs of a plain scalar that has to stay at or beyond a column outside of
flow collections. Also tells whether the last gap crosses a line. -/
def plainRuns (inFlow : Bool) (indent : Int) :
    (fuel : Nat) → (done gap : List Char) → (crosses : Bool) → Scan (List Char × Bool)
  | 0, _, _, _ => malformed
  | fuel + 1, done, gap, crosses => do
      if (← peek) = '#' then return (done, crosses)
      let run := plainRun inFlow (← get).rest
      if run.isEmpty then return (done, crosses)
      skip run.length
      let done := done ++ gap ++ run
      let gap ← plainGap
      if gap.text.isEmpty || (← peek) = '#' || (!inFlow && ((← get).column : Int) < indent) then
        return (done, gap.crosses)
      else plainRuns inFlow indent fuel done gap.text gap.crosses

/-- A plain scalar, and whether the blanks after it cross a line. -/
def plainScalar (inFlow : Bool) (indent : Int) : Scan (String × Bool) := do
  let (text, crosses) ← plainRuns inFlow indent (← fuelLeft) [] [] false
  return (String.ofList text, crosses)

/-! ### Block scalars -/

/-- What becomes of the line breaks at the end of a block scalar. -/
inductive Chomping
  | strip
  | clip
  | keep
deriving DecidableEq

/-- A chomping indicator, if one stands here. -/
def chomping? : Scan (Option Chomping) := do
  let c ← peek
  if c = '+' then
    skip 1
    return some .keep
  else if c = '-' then
    skip 1
    return some .strip
  else return none

/-- An indentation indicator, if one stands here. -/
def increment? : Scan (Option Nat) := do
  let c ← peek
  if c.isDigit then
    if c = '0' then malformed
    skip 1
    return some (c.toNat - '0'.toNat)
  else return none

/-- The indicators of a block scalar, in either order. -/
def blockIndicators : Scan (Chomping × Option Nat) := do
  match ← chomping? with
  | some chomping =>
      let increment ← increment?
      expect isSpaceOrEnd
      return (chomping, increment)
  | none =>
      match ← increment? with
      | some increment =>
          let chomping ← chomping?
          expect isSpaceOrEnd
          return (chomping.getD .clip, some increment)
      | none =>
          expect isSpaceOrEnd
          return (.clip, none)

/-- The rest of a line that may hold a comment only. -/
def ignoredLine : Scan Unit := do
  skipBlanks
  skipComment
  expect isBreakOrEnd
  let _ ← lineBreak

/-- Skip the blanks of the indentation, up to a column. -/
def skipIndent (indent : Int) : Scan Unit := do
  let cursor ← get
  let room := (indent - cursor.column).toNat
  skip ((cursor.rest.take room).takeWhile (· = ' ')).length

/-- The empty lines of a block scalar with a known indentation. -/
def blockBreaks (indent : Int) : (fuel : Nat) → (done : List Char) → Scan (List Char)
  | 0, _ => malformed
  | fuel + 1, done => do
      skipIndent indent
      if isBreak (← peek) then blockBreaks indent fuel (done ++ (← lineBreak))
      else return done

/-- The empty lines at the start of a block scalar, and the deepest indentation
among them and the line that follows. -/
def blockIndentation : (fuel : Nat) → (done : List Char) → (deepest : Nat) →
    Scan (List Char × Nat)
  | 0, _, _ => malformed
  | fuel + 1, done, deepest => do
      let c ← peek
      if c = ' ' then
        skip 1
        blockIndentation fuel done (max deepest (← get).column)
      else if isBreak c then blockIndentation fuel (done ++ (← lineBreak)) deepest
      else return (done, deepest)

/-- The lines of a block scalar. `breaks` are the empty lines before the next one.
Returns the text, the last line break and the empty lines after it. -/
def blockLines (folded : Bool) (indent : Int) : (fuel : Nat) →
    (done breaks lastBreak : List Char) → Scan (List Char × List Char × List Char)
  | 0, _, _, _ => malformed
  | fuel + 1, done, breaks, lastBreak => do
      let c ← peek
      if ((← get).column : Int) != indent || c = endMark then return (done, lastBreak, breaks)
      let line ← takeWhile (!isBreak ·)
      let done := done ++ breaks ++ line
      let lastBreak ← lineBreak
      let breaks ← blockBreaks indent (← fuelLeft) []
      let following ← peek
      if ((← get).column : Int) = indent && following != endMark then
        let isIndented (c : Char) := c = ' ' || c = '\t'
        let joined :=
          if folded && lastBreak = ['\n'] && !isIndented c && !isIndented following then
            if breaks.isEmpty then [' '] else []
          else lastBreak
        blockLines folded indent fuel (done ++ joined) breaks lastBreak
      else return (done, lastBreak, breaks)

/-- A block scalar below a block of the given indentation. -/
def blockScalar (folded : Bool) (outer : Int) : Scan String := do
  skip 1
  let (chomping, increment) ← blockIndicators
  ignoredLine
  let least := max (outer + 1) 1
  let (breaks, indent) ← match increment with
    | none => do
        let (breaks, deepest) ← blockIndentation (← fuelLeft) [] 0
        pure (breaks, max least deepest)
    | some increment => do
        let indent := least + increment - 1
        pure (← blockBreaks indent (← fuelLeft) [], indent)
  let (text, lastBreak, breaks) ← blockLines folded indent (← fuelLeft) [] breaks []
  return String.ofList (text ++
    (if chomping = .strip then [] else lastBreak) ++ (if chomping = .keep then breaks else []))

end ApiCensus.Yaml
