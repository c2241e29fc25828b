import ApiCensus.Files.Tree
import ApiCensus.Index.LoadError

/-!
# Failures

Why an operation of the census ends without a result.  Load errors and
unsupported presentations are reported to the user; the others show that data or
configuration have a shape or a value that an operation cannot work with.
-/

namespace ApiCensus

/-- The groupings a report can be asked for, by name. -/
def groupingNames : List String :=
  ["category", "module", "stability", "crate"]

/-- A value of the right kind that is out of the range of an operation. -/
inductive InvalidValue
  | integer (cause : Number.IntegerError)
  | notANumber
  | precision
  | precisionTooBig
  | tooManyPlaces
  | grouping (requested : String)
  | configNotARecord (path : String)
  | moment (cause : Moment.RangeError)
  | floating (text : String)
  | codePoint
deriving Repr

/-- The wording of an invalid value. -/
def InvalidValue.message : InvalidValue → String
  | .integer cause => cause.message
  | .notANumber => "cannot convert float NaN to integer"
  | .precision => "Format specifier missing precision"
  | .precisionTooBig => "precision too big"
  | .tooManyPlaces => "Too many decimal digits in format string"
  | .grouping requested =>
      let choices := ", ".intercalate groupingNames
      s!"unknown grouping {Text.quoted requested} (choose from: {choices})"
  | .configNotARecord path => s!"config file {path} must contain a mapping at the top level"
  | .moment cause => cause.message
  | .floating text => "could not convert string to float: " ++ Text.quoted text
  | .codePoint => "chr() arg not in range(0x110000)"

/-- Why an operation ends without a result. -/
inductive Failure
  | load (cause : LoadError)
  | presentation (requested : String) (supported : List String)
  | shape (cause : ShapeError)
  | invalid (cause : InvalidValue)
  | overflow
  | divisionByZero
  | csv
  | yaml
  /-- The brackets of a text are nested too deeply. -/
  | tooDeep
  | undecodable (cause : Text.Utf8.DecodeError)
  | file (problem : Files.Problem) (path : Files.Path)
deriving Repr

namespace Failure

/-- The wording of an unsupported presentation. -/
def presentationMessage (requested : String) (supported : List String) : String :=
  let choices := ", ".intercalate supported
  s!"unsupported presentation {Text.quoted requested} (choose from: {choices})"

end Failure

instance : MonadLift (Except ShapeError) (Except Failure) where
  monadLift result := result.mapError .shape

instance : MonadLift (Except Number.IntegerError) (Except Failure) where
  monadLift result := result.mapError fun cause => .invalid (.integer cause)

end ApiCensus
