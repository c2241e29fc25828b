import ApiCensus.Text.Utf8
import ApiCensus.Outer.Yaml.ScalarText
import ApiCensus.Outer.Yaml.Token

/-!
# From text to tokens

A mapping key is recognized only when the colon after it is met.  The lexer
therefore remembers, for each level of flow collections, where a key could have
started, and puts the key token there afterwards.
-/

namespace ApiCensus.Yaml

/-! ### Directives, anchors and tags -/

/-- The characters of tags and their handles' expansions. -/
def isTagChar (c : Char) : Bool :=
  c.isAlphanum || "-;/?:@&=+$,_.!~*'()[]%".toList.contains c

/-- A nonempty word. -/
def word : Scan String := do
  let taken ← takeWhile isWordChar
  if taken.isEmpty then malformed
  return String.ofList taken

/-- A nonempty decimal number. -/
def versionNumber : Scan Nat := do
  let taken ← takeWhile Char.isDigit
  if taken.isEmpty then malformed
  return taken.foldl (fun total c => total * 10 + (c.toNat - '0'.toNat)) 0

/-- A tag handle: an exclamation mark, or a word between two of them. -/
def tagHandle : Scan String := do
  expect (· = '!')
  skip 1
  if (← peek) = ' ' then return "!"
  let name ← takeWhile isWordChar
  expect (· = '!')
  skip 1
  return String.ofList ('!' :: name ++ ['!'])

/-- Bytes written as percent signs with two hexadecimal digits each. -/
def escapedBytes : List Char → Option (List UInt8 × List Char)
  | '%' :: high :: low :: rest => do
      let byte ← Text.hexNumber? [high, low]
      let (bytes, rest) ← escapedBytes rest
      return (UInt8.ofNat byte :: bytes, rest)
  | '%' :: _ => none
  | rest => some ([], rest)

/-- The characters of a tag, in which bytes may be escaped. -/
def tagChars : (fuel : Nat) → (done : List Char) → Scan (List Char)
  | 0, _ => malformed
  | fuel + 1, done => do
      let run ← takeWhile fun c => isTagChar c && c != '%'
      let done := done ++ run
      if (← peek) != '%' then return done
      let before := (← get).rest
      match escapedBytes before with
      | none => malformed
      | some (bytes, rest) =>
          match Text.Utf8.decode bytes with
          | .error _ => malformed
          | .ok text =>
              skip (before.length - rest.length)
              tagChars fuel (done ++ text.toList)

/-- The nonempty text of a tag. -/
def tagText : Scan String := do
  let chars ← tagChars (← fuelLeft) []
  if chars.isEmpty then malformed
  return String.ofList chars

/-- A directive, after its percent sign. -/
def directive : Scan Token := do
  let name ← word
  expect isSpaceOrEnd
  let token ←
    if name = "YAML" then do
      skipBlanks
      let major ← versionNumber
      expect (· = '.')
      skip 1
      let _ ← versionNumber
      expect isSpaceOrEnd
      pure (.versionDirective major)
    else if name = "TAG" then do
      skipBlanks
      let handle ← tagHandle
      expect (· = ' ')
      skipBlanks
      let expansion ← tagText
      expect isSpaceOrEnd
      pure (.tagDirective handle expansion)
    else do
      let _ ← takeWhile (!isBreak ·)
      pure .otherDirective
  ignoredLine
  return token

/-- The name of an anchor or an alias. -/
def anchorName : Scan String := do
  let name ← word
  expect fun c => isWhiteOrEnd c || "?:,]\x7d%@`".toList.contains c
  return name

/-- Whether an exclamation mark stands before the next blank. -/
def hasHandle (rest : List Char) : Bool :=
  (rest.takeWhile (!isSpaceOrEnd ·)).contains '!'

/-- A tag. -/
def tagToken : Scan Token := do
  let c ← peekAt 1
  let token ←
    if c = '<' then do
      skip 2
      let suffix ← tagText
      expect (· = '>')
      skip 1
      pure (.tag none suffix)
    else if isWhiteOrEnd c then do
      skip 1
      pure (.tag none "!")
    else do
      let handle ←
        if hasHandle ((← get).rest.drop 1) then tagHandle
        else do
          skip 1
          pure "!"
      pure (.tag (some handle) (← tagText))
  expect isSpaceOrEnd
  return token

/-! ### The state of the lexer -/

/-- Where a mapping key could have started. -/
structure PossibleKey where
  level : Nat
  position : Nat
  required : Bool
  index : Nat
  line : Nat
  column : Nat

/-- The longest a key can be that is recognized by its colon. -/
def keyLimit : Nat := 1024

/-- The state of the lexer. -/
structure Lexer where
  cursor : Cursor
  tokens : List Token := []
  indent : Int := -1
  outer : List Int := []
  flowLevel : Nat := 0
  allowsKey : Bool := true
  keys : List PossibleKey := []

/-- Steps of the lexer. -/
abbrev Lex := StateT Lexer (Except Failure)

namespace Lex

/-- Move the lexer's cursor. -/
def scan (reading : Scan α) : Lex α := do
  let lexer ← get
  let (result, cursor) ← reading.run lexer.cursor
  set { lexer with cursor }
  return result

/-- Add a token. -/
def emit (token : Token) : Lex Unit :=
  modify fun lexer => { lexer with tokens := lexer.tokens ++ [token] }

/-- Put a token at an earlier position. -/
def emitAt (position : Nat) (token : Token) : Lex Unit :=
  modify fun lexer =>
    { lexer with tokens := lexer.tokens.take position ++ token :: lexer.tokens.drop position }

/-- Say whether a key can start here. -/
def allowKey (allowed : Bool) : Lex Unit :=
  modify fun lexer => { lexer with allowsKey := allowed }

/-- Whether the lexer is inside a flow collection. -/
def inFlow : Lex Bool := do
  return (← get).flowLevel != 0

/-- End the blocks that are indented further than a column. -/
def unwindFrom (column : Int) : (outer : List Int) → (indent : Int) → Int × List Int × Nat
  | [], indent => (indent, [], 0)
  | previous :: outer, indent =>
      if indent > column then
        let (indent, outer, ended) := unwindFrom column outer previous
        (indent, outer, ended + 1)
      else (indent, previous :: outer, 0)

/-- End the blocks that are indented further than a column, outside of flow
collections. -/
def unwind (column : Int) : Lex Unit := do
  unless ← inFlow do
    modify fun lexer =>
      let (indent, outer, ended) := unwindFrom column lexer.outer lexer.indent
      { lexer with
        indent, outer, tokens := lexer.tokens ++ List.replicate ended .blockEnd }

/-- Start a block at a column, if it is deeper than the present one. -/
def deepen (column : Nat) : Lex Bool := do
  let lexer ← get
  if lexer.indent < column then
    set { lexer with indent := (column : Int), outer := lexer.indent :: lexer.outer }
    return true
  else return false

/-- Forget keys that can no longer be completed: those of earlier lines and those
that are too long. A required one must not be forgotten. -/
def dropStaleKeys : Lex Unit := do
  let lexer ← get
  let isStale (key : PossibleKey) : Bool :=
    key.line != lexer.cursor.line || lexer.cursor.index - key.index > keyLimit
  if lexer.keys.any fun key => isStale key && key.required then throw .yaml
  set { lexer with keys := lexer.keys.filter (!isStale ·) }

/-- Forget the key of the present level. -/
def dropKey : Lex Unit := do
  let lexer ← get
  let isHere (key : PossibleKey) : Bool := key.level == lexer.flowLevel
  if lexer.keys.any fun key => isHere key && key.required then throw .yaml
  set { lexer with keys := lexer.keys.filter (!isHere ·) }

/-- Remember that a key could start here. -/
def saveKey : Lex Unit := do
  if (← get).allowsKey then
    dropKey
    modify fun lexer =>
      let cursor := lexer.cursor
      { lexer with
        keys :=
          { level := lexer.flowLevel
            position := lexer.tokens.length
            required := lexer.flowLevel == 0 && lexer.indent == (cursor.column : Int)
            index := cursor.index
            line := cursor.line
            column := cursor.column } :: lexer.keys }

/-! ### Single tokens -/

/-- Skip blanks, comments and line breaks. After a line break a key can start,
outside of flow collections. -/
def skipToToken : (fuel : Nat) → Lex Unit
  | 0 => throw .yaml
  | fuel + 1 => do
      scan skipBlanks
      scan skipComment
      let taken ← scan lineBreak
      unless taken.isEmpty do
        unless ← inFlow do allowKey true
        skipToToken fuel

/-- A directive. -/
def directive : Lex Unit := do
  unwind (-1)
  dropKey
  allowKey false
  emit (← scan (do skip 1; Yaml.directive))

/-- A document marker. -/
def marker (token : Token) : Lex Unit := do
  unwind (-1)
  dropKey
  allowKey false
  scan (skip 3)
  emit token

/-- The start of a flow collection. -/
def openFlow (token : Token) : Lex Unit := do
  saveKey
  modify fun lexer => { lexer with flowLevel := lexer.flowLevel + 1 }
  allowKey true
  scan (skip 1)
  emit token

/-- The end of a flow collection. -/
def closeFlow (token : Token) : Lex Unit := do
  unless ← inFlow do throw .yaml
  dropKey
  modify fun lexer => { lexer with flowLevel := lexer.flowLevel - 1 }
  allowKey false
  scan (skip 1)
  emit token

/-- The comma of a flow collection. -/
def flowEntry : Lex Unit := do
  allowKey true
  dropKey
  scan (skip 1)
  emit .flowEntry

/-- Start a block collection here, where keys are allowed, outside of flow
collections. -/
def startBlock (token : Token) : Lex Unit := do
  unless ← inFlow do
    unless (← get).allowsKey do throw .yaml
    if ← deepen (← get).cursor.column then emit token

/-- The dash of a block sequence. -/
def blockEntry : Lex Unit := do
  startBlock .blockSequenceStart
  allowKey true
  dropKey
  scan (skip 1)
  emit .blockEntry

/-- The question mark of a key. -/
def key : Lex Unit := do
  startBlock .blockMappingStart
  allowKey (!(← inFlow))
  dropKey
  scan (skip 1)
  emit .key

/-- The colon of a value, which completes the key of its level. -/
def value : Lex Unit := do
  let lexer ← get
  match lexer.keys.find? fun key => key.level == lexer.flowLevel with
  | some found =>
      set { lexer with keys := lexer.keys.filter fun key => key.level != lexer.flowLevel }
      emitAt found.position .key
      unless ← inFlow do
        if ← deepen found.column then emitAt found.position .blockMappingStart
      allowKey false
  | none =>
      startBlock .blockMappingStart
      allowKey (!(← inFlow))
      dropKey
  scan (skip 1)
  emit .value

/-- A token that can be part of a key. -/
def inKey (reading : Scan Token) : Lex Unit := do
  saveKey
  allowKey false
  emit (← scan reading)

/-- A block scalar. -/
def block (folded : Bool) : Lex Unit := do
  allowKey true
  dropKey
  let text ← scan (blockScalar folded (← get).indent)
  emit (.scalar text false)

/-- A plain scalar. After a line break a key can start again. -/
def plain : Lex Unit := do
  saveKey
  let (text, crosses) ← scan (plainScalar (← inFlow) ((← get).indent + 1))
  allowKey crosses
  emit (.scalar text true)

/-- The characters with a meaning of their own at the start of a token. -/
def isIndicator (c : Char) : Bool :=
  "-?:,[]\x7b\x7d#&*!|>'\"%@`".toList.contains c

/-- The token that starts with `c`, which `following` follows, at a column. -/
def token (c following : Char) (column : Nat) : Lex Unit := do
  let flow ← inFlow
  let apart := isWhiteOrEnd following
  if c = '%' && column = 0 then directive
  else if column = 0 && (← scan atMarker) then
    marker (if c = '-' then .documentStart else .documentEnd)
  else if c = '[' then openFlow .flowSequenceStart
  else if c = '\x7b' then openFlow .flowMappingStart
  else if c = ']' then closeFlow .flowSequenceEnd
  else if c = '\x7d' then closeFlow .flowMappingEnd
  else if c = ',' then flowEntry
  else if c = '-' && apart then blockEntry
  else if c = '?' && (flow || apart) then key
  else if c = ':' && (flow || apart) then value
  else if c = '*' then inKey (do skip 1; return .alias (← anchorName))
  else if c = '&' then inKey (do skip 1; return .anchor (← anchorName))
  else if c = '!' then inKey tagToken
  else if c = '|' && !flow then block false
  else if c = '>' && !flow then block true
  else if c = '\'' || c = '"' then inKey (do return .scalar (← quotedScalar) false)
  else if !(isWhiteOrEnd c || isIndicator c) then plain
  else if !apart && (c = '-' || (!flow && (c = '?' || c = ':'))) then plain
  else throw .yaml

/-- All tokens up to the end of the text. -/
def all : (fuel : Nat) → Lex Unit
  | 0 => throw .yaml
  | fuel + 1 => do
      skipToToken (← scan fuelLeft)
      dropStaleKeys
      let cursor := (← get).cursor
      unwind cursor.column
      match cursor.rest with
      | [] =>
          unwind (-1)
          dropKey
      | c :: rest =>
          token c (rest.head?.getD endMark) cursor.column
          all fuel

end Lex

/-- The tokens of a text. A byte order mark at its start is passed over. -/
def tokens (text : String) : Except Failure (List Token) := do
  let chars := text.toList
  unless chars.all isPermitted do throw .yaml
  let start : Cursor := { rest := chars }
  let cursor := if chars.head? = some '\ufeff' then start.next else start
  let (_, lexer) ← (Lex.all (chars.length + 1)).run { cursor }
  return lexer.tokens

end ApiCensus.Yaml
