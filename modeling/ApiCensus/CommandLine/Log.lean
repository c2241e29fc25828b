import ApiCensus.Analysis.Basic
import ApiCensus.Files.Path

/-!
# The log of a run

What is remarked on while a request is carried out.  How much of it is shown
depends on how often the user asks for details.
-/

namespace ApiCensus.CommandLine

/-- How much a remark matters. -/
inductive Severity
  | debug
  | info
  | warning
deriving DecidableEq, Repr

namespace Severity

/-- The name of a severity. -/
def name : Severity → String
  | .debug => "DEBUG"
  | .info => "INFO"
  | .warning => "WARNING"

/-- The rank of a severity. -/
def rank : Severity → Nat
  | .debug => 0
  | .info => 1
  | .warning => 2

/-- Whether remarks of a severity are shown. -/
def isShown (verbosity : Nat) (severity : Severity) : Bool :=
  2 - verbosity ≤ severity.rank

end Severity

/-- A remark on what is going on. -/
inductive Remark
  | configMissing (path : Files.Path)
  | loading (path : Files.Path)
  | loaded (items : Nat) (crate : String) (version : Int)
  | cycle (report : CycleReport)
  | unknownKind (tag : String) (id : ItemId)
  | analyzed (crate : String) (items warnings : Nat)
  | excluded (items : Nat)
  | aggregated (rows : Nat) (grouping : Grouping)
  | wrote (task : String) (path : Files.Path)

namespace Remark

/-- The severity of a remark. -/
def severity : Remark → Severity
  | .configMissing _ | .unknownKind _ _ => .warning
  | .cycle report => if report.repeated then .debug else .warning
  | .analyzed _ _ _ | .excluded _ | .wrote _ _ => .info
  | .loading _ | .loaded _ _ _ | .aggregated _ _ => .debug

/-- The part of the program that makes a remark. -/
def speaker : Remark → String
  | .configMissing _ => "apistats.load_config"
  | .loading _ | .analyzed _ _ _ | .excluded _ => "apistats.run_analysis"
  | .loaded _ _ _ => "apistats.load_document"
  | .cycle _ => "apistats.resolve_paths"
  | .unknownKind _ _ => "apistats.classify_item"
  | .aggregated _ _ => "apistats.aggregate"
  | .wrote _ _ => "apistats.cli"

/-- The wording of a remark. -/
def message : Remark → String
  | .configMissing path => s!"Config file {path.text} not found; using defaults"
  | .loading path => s!"Loading {path.text}"
  | .loaded items crate version =>
      s!"Loaded {items} items from crate {crate} (format version {version})"
  | .cycle report =>
      s!"[resolve] {report.cycle.message}" ++
        (if report.repeated then " (already reported)" else "")
  | .unknownKind tag id =>
      s!"Unrecognized item kind {Text.quoted tag} (first seen on id {id}); counted as Other"
  | .analyzed crate items warnings =>
      s!"Analyzed crate {crate}: {items} items, {warnings} warnings"
  | .excluded items => s!"Excluded {items} items by path prefix"
  | .aggregated rows grouping => s!"Aggregated {rows} rows grouped by {grouping.name}"
  | .wrote task path => s!"Wrote {task} report to {path.text}"

/-- The line of a remark. -/
def line (remark : Remark) : String :=
  s!"{remark.severity.name} {remark.speaker}: {remark.message}\n"

/-- The remarks on a document that has been analysed. -/
def onDocument (analyzed : AnalyzedDocument) : List Remark :=
  analyzed.resolution.reports.map .cycle ++
    analyzed.classification.firstUnknown.map fun item => .unknownKind item.rawKind item.id

/-- The remark that sums up a document. -/
def summing (analyzed : AnalyzedDocument) : Remark :=
  .analyzed analyzed.document.crateName analyzed.classification.items.length
    analyzed.resolution.warnings.length

/-- The remarks on the counts of an analysis. -/
def onAnalysis (analysis : Analysis) : List Remark :=
  (if analysis.excluded = 0 then [] else [.excluded analysis.excluded]) ++
    [.aggregated analysis.rows.length analysis.grouping]

end Remark

end ApiCensus.CommandLine
