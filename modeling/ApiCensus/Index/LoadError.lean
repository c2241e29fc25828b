import ApiCensus.Index.ItemId
import ApiCensus.Json.Reader
import ApiCensus.Text.Utf8

/-!
# Why an index cannot be loaded

The causes for which the loader refuses an index, with their wording.
-/

namespace ApiCensus

/-- In which role an item refers to another one. -/
inductive Role
  | crateRoot
  | owner
  | member
  | implementation
  | implementedTrait
  | reexportTarget
  | visibilityScope
deriving DecidableEq, Repr

/-- The wording of a role. -/
def Role.text : Role → String
  | .crateRoot => "crate root"
  | .owner => "owning module"
  | .member => "member"
  | .implementation => "implementation"
  | .implementedTrait => "implemented trait"
  | .reexportTarget => "re-export target"
  | .visibilityScope => "visibility scope"

/-- The oldest format version that is understood. -/
def minFormatVersion : Int := 15

/-- The newest format version that is understood. -/
def maxFormatVersion : Int := 60

/-- Why an index cannot be loaded. -/
inductive LoadError
  | invalidBytes (cause : Text.Utf8.DecodeError)
  | malformedJson (cause : Json.SyntaxError)
  | notARecord
  | versionNotInteger (found : Value)
  | versionOutOfRange (version : Int)
  | missingIndex
  | pathsNotARecord
  | malformedSummary (id : ItemId)
  | cratesNotARecord
  | entryNotARecord (id : ItemId)
  | missingRoot
  | dangling (target referrer : ItemId) (role : Role)
deriving Repr

namespace LoadError

/-- The wording of a load error. -/
def message : LoadError → String
  | .invalidBytes cause => "input is not valid UTF-8: " ++ cause.message
  | .malformedJson cause => "input is not well-formed JSON: " ++ cause.message
  | .notARecord => "top level of an API index must be an object"
  | .versionNotInteger found => "missing or non-integer 'format_version': " ++ found.toQuoted
  | .versionOutOfRange version =>
      s!"unsupported format version {version} " ++
        s!"(supported: {minFormatVersion} to {maxFormatVersion})"
  | .missingIndex => "missing or malformed 'index' object"
  | .pathsNotARecord => "'paths' must be an object"
  | .malformedSummary id => "malformed path summary for " ++ Text.quoted id
  | .cratesNotARecord => "'external_crates' must be an object"
  | .entryNotARecord id => "index entry " ++ Text.quoted id ++ " is not an object"
  | .missingRoot => "missing 'root' identifier"
  | .dangling target referrer role =>
      "item " ++ Text.quoted referrer ++ " references unknown id " ++ Text.quoted target ++
        " as " ++ role.text

/-- The identifier that a load error is about. -/
def identifier? : LoadError → Option ItemId
  | .malformedSummary id => some id
  | .entryNotARecord id => some id
  | .dangling target _ _ => some target
  | _ => none

end LoadError

end ApiCensus
