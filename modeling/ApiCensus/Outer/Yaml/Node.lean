import ApiCensus.Outer.Yaml.Schema
import ApiCensus.Outer.Yaml.Token

/-!
# YAML nodes

The tree of a document: scalars, sequences and mappings with their types.  An
alias stands for the node of its anchor.
-/

namespace ApiCensus.Yaml

/-- A node with its type. -/
inductive Node
  | scalar (tag : Tag) (text : String)
  | sequence (tag : Tag) (elements : List Node)
  | mapping (tag : Tag) (entries : List (Node × Node))

namespace Node

/-- The type of a node. -/
def tag : Node → Tag
  | .scalar tag _ => tag
  | .sequence tag _ => tag
  | .mapping tag _ => tag

/-- The node of an empty place. -/
def empty : Node := .scalar .null ""

/-- A reading of tokens: those left, the anchored nodes and the tag handles. -/
structure Reading where
  tokens : List Token
  anchors : List (String × Node) := []
  handles : List (String × String) := []

/-- Steps of reading nodes. -/
abbrev Read := StateT Reading (Except Failure)

/-- The handles that need no directive. -/
def standardHandles : List (String × String) :=
  [("!", "!"), ("!!", standardTag)]

/-- The next token. -/
def next? : Read (Option Token) := do
  return (← get).tokens.head?

/-- Drop the next token. -/
def advance : Read Unit :=
  modify fun reading => { reading with tokens := reading.tokens.drop 1 }

/-- Drop the next token if it is the given one. -/
def accept (token : Token) : Read Bool := do
  if (← next?) = some token then
    advance
    return true
  else return false

/-- Whether the next token is one of a list. -/
def isNext (tokens : List Token) : Read Bool := do
  return (← next?).any tokens.contains

/-- An anchor, if one comes next. -/
def anchor? : Read (Option String) := do
  match ← next? with
  | some (.anchor name) =>
      advance
      return some name
  | _ => return none

/-- The full name of a tag, if one comes next. -/
def tagName? : Read (Option String) := do
  match ← next? with
  | some (.tag none suffix) =>
      advance
      return some suffix
  | some (.tag (some handle) suffix) =>
      advance
      match (← get).handles.lookup handle with
      | some expansion => return some (expansion ++ suffix)
      | none => throw .yaml
  | _ => return none

/-- The anchor and the tag of a node, in either order. -/
def properties : Read (Option String × Option String) := do
  match ← anchor? with
  | some name => return (some name, ← tagName?)
  | none =>
      let tag ← tagName?
      return (← if tag.isSome then anchor? else pure none, tag)

/-- An anchor that is in use must not be set again. -/
def checkAnchor (anchor : Option String) : Read Unit := do
  if let some name := anchor then
    if ((← get).anchors.lookup name).isSome then throw .yaml

/-- Remember a node under its anchor. -/
def setAnchor (anchor : Option String) (node : Node) : Read Node := do
  checkAnchor anchor
  if let some name := anchor then
    modify fun reading => { reading with anchors := (name, node) :: reading.anchors }
  return node

/-- The type given by a tag; without one, or with a lone exclamation mark, the one
that the node shows. -/
def typeOf (tag : Option String) (shown : Tag) : Tag :=
  match tag with
  | none => shown
  | some "!" => shown
  | some name => .ofName name

/-- The node of a scalar token. A quoted scalar is a text. -/
def ofScalar (tag : Option String) (text : String) (plain : Bool) : Node :=
  .scalar (typeOf tag (if plain || tag.isSome then .ofPlain text else .text)) text

/-- Where a node can stand. -/
inductive Place
  | flow
  | block
  /-- As key or value of a block mapping, where a sequence need not be indented. -/
  | mapped
deriving DecidableEq

mutual

/-- A node. -/
def node (fuel : Nat) (place : Place) : Read Node :=
  match fuel with
  | 0 => throw .yaml
  | fuel + 1 => do
      if let some (.alias name) := (← next?) then
        advance
        match (← get).anchors.lookup name with
        | some target => return target
        | none => throw .yaml
      let (anchor, tag) ← properties
      checkAnchor anchor
      let content ← content fuel place tag anchor.isSome
      setAnchor anchor content

/-- The content of a node after its anchor and tag. -/
def content (fuel : Nat) (place : Place) (tag : Option String) (anchored : Bool) : Read Node :=
  match fuel with
  | 0 => throw .yaml
  | fuel + 1 => do
      let sequence (elements : List Node) : Node := .sequence (typeOf tag .sequence) elements
      let mapping (entries : List (Node × Node)) : Node := .mapping (typeOf tag .mapping) entries
      match ← next? with
      | some (.scalar text plain) =>
          advance
          return ofScalar tag text plain
      | some .flowSequenceStart =>
          advance
          return sequence (← flowElements fuel true)
      | some .flowMappingStart =>
          advance
          return mapping (← flowEntries fuel true)
      | next =>
          if place = .mapped && next = some .blockEntry then
            return sequence (← loneElements fuel)
          else if place != .flow && next = some .blockSequenceStart then
            advance
            return sequence (← blockElements fuel)
          else if place != .flow && next = some .blockMappingStart then
            advance
            return mapping (← blockEntries fuel)
          else if anchored || tag.isSome then return .scalar (typeOf tag .null) ""
          else throw .yaml

/-- A node, or an empty one before certain tokens. -/
def nodeUnless (fuel : Nat) (place : Place) (ends : List Token) : Read Node :=
  match fuel with
  | 0 => throw .yaml
  | fuel + 1 => do
      if ← isNext ends then return empty else node fuel place

/-- The elements of a block sequence and its end. -/
def blockElements (fuel : Nat) : Read (List Node) :=
  match fuel with
  | 0 => throw .yaml
  | fuel + 1 => do
      if ← accept .blockEntry then
        let element ← nodeUnless fuel .block [.blockEntry, .blockEnd]
        return element :: (← blockElements fuel)
      else if ← accept .blockEnd then return []
      else throw .yaml

/-- The elements of a sequence that is not indented. -/
def loneElements (fuel : Nat) : Read (List Node) :=
  match fuel with
  | 0 => throw .yaml
  | fuel + 1 => do
      if ← accept .blockEntry then
        let element ← nodeUnless fuel .block [.blockEntry, .key, .value, .blockEnd]
        return element :: (← loneElements fuel)
      else return []

/-- The entries of a block mapping and its end. -/
def blockEntries (fuel : Nat) : Read (List (Node × Node)) :=
  match fuel with
  | 0 => throw .yaml
  | fuel + 1 => do
      if ← accept .key then
        let key ← nodeUnless fuel .mapped [.key, .value, .blockEnd]
        let value ←
          if ← accept .value then nodeUnless fuel .mapped [.key, .value, .blockEnd]
          else pure empty
        return (key, value) :: (← blockEntries fuel)
      else if ← accept .blockEnd then return []
      else throw .yaml

/-- The elements of a flow sequence and its end. A pair of key and value is a
mapping of one entry. -/
def flowElements (fuel : Nat) (first : Bool) : Read (List Node) :=
  match fuel with
  | 0 => throw .yaml
  | fuel + 1 => do
      if ← accept .flowSequenceEnd then return []
      unless first do
        unless ← accept .flowEntry do throw .yaml
      if ← accept .flowSequenceEnd then return []
      let element ←
        if ← accept .key then do
          let key ← nodeUnless fuel .flow [.value, .flowEntry, .flowSequenceEnd]
          let value ←
            if ← accept .value then nodeUnless fuel .flow [.flowEntry, .flowSequenceEnd]
            else pure empty
          pure (.mapping .mapping [(key, value)])
        else node fuel .flow
      return element :: (← flowElements fuel false)

/-- The entries of a flow mapping and its end. -/
def flowEntries (fuel : Nat) (first : Bool) : Read (List (Node × Node)) :=
  match fuel with
  | 0 => throw .yaml
  | fuel + 1 => do
      if ← accept .flowMappingEnd then return []
      unless first do
        unless ← accept .flowEntry do throw .yaml
      if ← accept .flowMappingEnd then return []
      let entry ←
        if ← accept .key then do
          let key ← nodeUnless fuel .flow [.value, .flowEntry, .flowMappingEnd]
          let value ←
            if ← accept .value then nodeUnless fuel .flow [.flowEntry, .flowMappingEnd]
            else pure empty
          pure (key, value)
        else do pure (← node fuel .flow, empty)
      return entry :: (← flowEntries fuel false)

end

/-- Drop the marks of the ends of documents. -/
def skipDocumentEnds : Read Unit :=
  modify fun reading => { reading with tokens := reading.tokens.dropWhile (· = .documentEnd) }

/-- The directives before a document: at most one version, of which the first
number is 1, and each handle at most once. -/
def directives : (tokens : List Token) → (versioned : Bool) → (handles : List (String × String)) →
    Except Failure (List (String × String) × List Token)
  | .versionDirective major :: rest, versioned, handles =>
      if versioned || major != 1 then throw .yaml else directives rest true handles
  | .tagDirective handle expansion :: rest, versioned, handles =>
      if (handles.lookup handle).isSome then throw .yaml
      else directives rest versioned ((handle, expansion) :: handles)
  | .otherDirective :: rest, versioned, handles => directives rest versioned handles
  | tokens, _, handles => return (handles, tokens)

/-- The content of a document that starts with a mark. -/
def markedContent (fuel : Nat) : Read Node := do
  match ← next? with
  | none => return empty
  | some token =>
      if token.isDirective || token = .documentStart || token = .documentEnd then return empty
      else node fuel .block

/-- The only document of a text, none if there is not any. -/
def document (fuel : Nat) : Read (Option Node) := do
  let some first := (← next?) | return none
  let root ←
    if first.isDirective || first = .documentStart then do
      let (handles, tokens) ← directives (← get).tokens false []
      modify fun reading => { reading with tokens, handles := handles ++ standardHandles }
      unless ← accept .documentStart do throw .yaml
      markedContent fuel
    else do
      modify fun reading => { reading with handles := standardHandles }
      node fuel .block
  skipDocumentEnds
  unless (← get).tokens.isEmpty do throw .yaml
  return some root

/-- The only document of a list of tokens, none if there is not any. Each token is
looked at by a bounded number of steps. -/
def ofTokens (tokens : List Token) : Except Failure (Option Node) := do
  let (root, _) ← (document (4 * tokens.length + 4)).run { tokens }
  return root

end Node

end ApiCensus.Yaml
