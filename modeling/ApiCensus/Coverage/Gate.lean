import ApiCensus.CommandLine.Options
import ApiCensus.Coverage.Module
import ApiCensus.Files.Disk
import ApiCensus.Number.Fixed
import ApiCensus.Text.LineEnd

/-!
# The coverage gate

The gate reads a coverage report and shows the modules of which lines or branches
are covered less than a threshold.  It lets a report pass that has none.  How the
table of modules is drawn is told from outside.
-/

namespace ApiCensus.Coverage

open CommandLine

/-- Which report is held against which threshold. -/
structure GateRequest where
  file : Files.Path
  threshold : Binary64

/-- The name of the program. -/
def gateProgram : String := "coverage_gate.py"

/-- The arguments of the gate. -/
def gateGrammar : Grammar where
  switches := [helpSwitch, ⟨["--file"], .value .anything⟩, ⟨["--threshold"], .value .number⟩]
  operands := .nothing

/-- The request of a command line. -/
def GateRequest.parse (arguments : List String) : Except Stop GateRequest := do
  let arguments ← gateGrammar.parse arguments
  unrecognized arguments.extras
  return {
    file := .ofText ((arguments.value? "--file").getD "coverage.json")
    threshold := ((arguments.value? "--threshold").bind Number.readFloat?).getD
      (Binary64.ofInt 85) }

/-- How the gate ends. -/
inductive GateEnding
  | help
  | misuse (complaint : String)
  | failed (cause : Failure)
  | unreadable (path : Files.Path) (why : String)
  | passed (modules : Nat) (threshold : Binary64)
  | held (modules : List ModuleCoverage)

/-- Whether a module is covered less than a threshold. -/
def ModuleCoverage.isBelow (threshold : Binary64) (coverage : ModuleCoverage) : Bool :=
  [coverage.lines, coverage.branches].any fun share => share.any (·.isBelow threshold)

/-- Draws a table of modules below a header. -/
abbrev TableDrawer := (header : List String) → List ModuleCoverage → String

/-- The columns of the table of modules. -/
def tableHeader : List String :=
  ["module", "lines %", "branches %"]

/-- The value of a report, or why it cannot be read. -/
def readReport (disk : Files.Disk) (files : disk.State) (path : Files.Path) :
    Except GateEnding Value :=
  match disk.read files path with
  | .error .nullCharacter => .error (.failed (.file .nullCharacter path))
  | .error problem => .error (.unreadable path (problem.message path))
  | .ok content =>
      match Text.Utf8.decode content with
      | .error cause => .error (.failed (.undecodable cause))
      | .ok text =>
          match Json.read (String.ofList (Text.unifyLineEnds text.toList)) with
          | .ok value => .ok value
          | .error (.malformed cause) => .error (.unreadable path cause.message)
          | .error (.integer cause) => .error (.failed (.invalid (.integer cause)))
          | .error .tooDeep => .error (.failed .tooDeep)

/-- The coverage of the modules in a report. -/
def reportModules (report : Value) : Except Failure (List ModuleCoverage) := do
  let report ← report.asRecord
  modules ((report.get? "files").getD (.record []))

/-- Hold a report against its threshold. -/
def GateRequest.run (request : GateRequest) (disk : Files.Disk) (files : disk.State) :
    GateEnding :=
  match readReport disk files request.file with
  | .error ending => ending
  | .ok report =>
      match reportModules report with
      | .error cause => .failed cause
      | .ok modules =>
          let below := modules.filter (·.isBelow request.threshold)
          if below.isEmpty then .passed modules.length request.threshold else .held below

/-- Carry out a command line of the gate. -/
def runGate (disk : Files.Disk) (files : disk.State) (arguments : List String) : GateEnding :=
  match GateRequest.parse arguments with
  | .ok request => request.run disk files
  | .error .help => .help
  | .error (.misuse complaint) => .misuse s!"{gateProgram}: error: {complaint}"

namespace GateEnding

/-- The exit code of an ending. -/
def exitCode : GateEnding → Nat
  | .help | .passed _ _ => 0
  | .failed _ | .unreadable _ _ | .held _ => 1
  | .misuse _ => 2

/-- What is printed. -/
def output (drawTable : TableDrawer) : GateEnding → String
  | .passed modules threshold =>
      s!"coverage gate passed ({modules} modules >= {threshold.fixed 0}%)\n"
  | .held modules => drawTable tableHeader modules ++ "\n"
  | _ => ""

/-- What is shown besides the output. -/
def messages : GateEnding → String
  | .unreadable path why => s!"cannot read coverage report {path.text}: {why}\n"
  | _ => ""

end GateEnding

end ApiCensus.Coverage
