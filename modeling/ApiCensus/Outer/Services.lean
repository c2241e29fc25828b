import ApiCensus.Config.Load
import ApiCensus.Coverage.Gate
import ApiCensus.Outer.Table
import ApiCensus.Outer.Yaml.Load
import ApiCensus.Report.Printer

/-!
# What the programs are run with

The reader of settings and the drawing of tables that the programs use.  The census
itself takes both as parameters.
-/

namespace ApiCensus.Services

/-- The layout that a setting names. A scalar that names none stands for the simple
one. -/
def layoutOf : Value → Except ShapeError Table.Layout
  | .text name => .ok (Table.Layout.ofName name)
  | .scalar _ => .ok .simple
  | _ => .error .unsuited

/-- Draw a table in the layout that a setting names. -/
def drawTable (format : Value) (header : List String) (rows : List (List String))
    (onRight : List Bool) : Except Failure String := do
  let layout ← layoutOf format
  return Table.render layout (onRight.map fun right => if right then .right else .left) header rows

/-- What reports are written with. -/
def printer : Printer where
  drawTable
  quotesReturns := false

/-- The reader of settings. -/
def settings : Config.Reader :=
  Yaml.load

/-- The text of a share. -/
def shareText (share : Option Binary64) : String :=
  (share.map (Binary64.fixed 1)).getD "n/a"

/-- Shares stand below each other by their points; a column without any holds only
text. -/
def shareAlign (shares : List (Option Binary64)) : Table.Align :=
  if shares.any Option.isSome then .decimal else .left

/-- Draw the table of modules. -/
def drawModules (header : List String) (modules : List Coverage.ModuleCoverage) : String :=
  Table.render .simple
    [.left, shareAlign (modules.map (·.lines)), shareAlign (modules.map (·.branches))]
    header
    (modules.map fun coverage =>
      [coverage.path, shareText coverage.lines, shareText coverage.branches])

end ApiCensus.Services
