/-!
# The tokens of a YAML text

Indentation is turned into tokens: a block collection starts and ends with a token
of its own.  The end of the text is the end of the token list.
-/

namespace ApiCensus.Yaml

/-- A token of a YAML text. -/
inductive Token
  | versionDirective (major : Nat)
  | tagDirective (handle expansion : String)
  | otherDirective
  | documentStart
  | documentEnd
  | blockSequenceStart
  | blockMappingStart
  | blockEnd
  | blockEntry
  | key
  | value
  | flowSequenceStart
  | flowSequenceEnd
  | flowMappingStart
  | flowMappingEnd
  | flowEntry
  | alias (name : String)
  | anchor (name : String)
  | tag (handle : Option String) (suffix : String)
  | scalar (text : String) (plain : Bool)
deriving DecidableEq

namespace Token

/-- Whether the token is a directive. -/
def isDirective : Token → Bool
  | .versionDirective _ | .tagDirective _ _ | .otherDirective => true
  | _ => false

end Token

end ApiCensus.Yaml
