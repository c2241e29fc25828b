import ApiCensus.Failure
import ApiCensus.Text.Case

/-!
# Presentations

The forms in which a report is written.
-/

namespace ApiCensus

/-- The form of a report. -/
inductive Presentation
  | csv
  | table
  | stats
  | markdown
deriving DecidableEq, Repr

namespace Presentation

/-- The name of a presentation. -/
def name : Presentation → String
  | .csv => "csv"
  | .table => "table"
  | .stats => "stats"
  | .markdown => "markdown"

/-- All presentations. -/
def all : List Presentation :=
  [.csv, .table, .stats, .markdown]

/-- The presentation with a name, in any case and with blanks around it. -/
def ofName (name : String) : Except Failure Presentation :=
  let word := Text.lower (Text.trim name)
  match all.find? (·.name == word) with
  | some presentation => .ok presentation
  | none => .error (.presentation name (all.map Presentation.name))

end Presentation

end ApiCensus
