import ApiCensus.CommandLine.Options
import ApiCensus.Files.Path
import ApiCensus.Report.Presentation
import ApiCensus.Tally.Grouping

/-!
# Requests

What a user asks for on the command line: a report in some presentation, or a
listing of items, made from one or more index files.
-/

namespace ApiCensus.CommandLine

/-- What is to be written. -/
inductive Task
  | report (presentation : Presentation) (grouping : Grouping)
  | listing (presentation : Presentation)
deriving DecidableEq, Repr

namespace Task

/-- The name of a task on the command line. -/
def name : Task → String
  | .report presentation _ => presentation.name
  | .listing _ => "items"

/-- The grouping of the counts of a task. -/
def grouping : Task → Grouping
  | .report _ grouping => grouping
  | .listing _ => .category

end Task

/-- What a user asks for. -/
structure Request where
  task : Task
  inputs : List Files.Path
  config : Option String
  output : Option Files.Path
  verbosity : Nat
deriving Repr

namespace Request

/-- The name of the program. -/
def program : String := "apistats"

/-- The presentations of listings. -/
def listingPresentations : List Presentation :=
  [.csv, .table, .markdown]

/-- The names of all tasks. -/
def taskNames : List String :=
  Presentation.all.map Presentation.name ++ ["items"]

/-- The arguments before the task. -/
def mainGrammar : Grammar where
  switches := [helpSwitch]
  operands := .command "command" taskNames

/-- The option of a task: the grouping of a report, the presentation of a listing. -/
def taskSwitch (task : String) : Switch :=
  if task = "items" then
    ⟨["--format"], .value (.oneOf (listingPresentations.map Presentation.name))⟩
  else ⟨["--group-by"], .value (.oneOf (Grouping.all.map Grouping.name))⟩

/-- The arguments after the name of a task. -/
def taskGrammar (task : String) : Grammar where
  switches := [
    helpSwitch,
    ⟨["--config"], .value .anything⟩,
    ⟨["-o", "--output"], .value .anything⟩,
    ⟨["-v", "--verbose"], .flag⟩,
    taskSwitch task]
  operands := .some "inputs"

/-- The task of a name and its option. -/
def taskOf (name : String) (arguments : Arguments) : Task :=
  if name = "items" then
    let format := (arguments.value? "--format").getD ""
    .listing ((listingPresentations.find? (·.name == format)).getD .table)
  else
    let grouping := (arguments.value? "--group-by").getD ""
    .report ((Presentation.all.find? (·.name == name)).getD .csv)
      ((Grouping.all.find? (·.name == grouping)).getD .category)

/-- The request of the arguments after the name of a task. -/
def ofArguments (task : String) (arguments : Arguments) : Request where
  task := taskOf task arguments
  inputs := arguments.operands.map Files.Path.ofText
  config := arguments.value? "--config"
  output := (arguments.value? "--output").map Files.Path.ofText
  verbosity := arguments.count "--verbose"

/-- A complaint with the name of the program or the task that it comes from. -/
def spokenBy (speaker : String) (result : Except Stop α) : Except Stop α :=
  result.mapError fun
    | .help => .help
    | .misuse complaint => .misuse s!"{speaker}: error: {complaint}"

/-- The request of a command line. -/
def parse (arguments : List String) : Except Stop Request := do
  let outer ← spokenBy program (mainGrammar.parse arguments)
  let task := (outer.operands.head?).getD ""
  let inner ← spokenBy s!"{program} {task}" ((taskGrammar task).parse (outer.operands.drop 1))
  spokenBy program (unrecognized (outer.extras ++ inner.extras))
  return ofArguments task inner

end Request

end ApiCensus.CommandLine
