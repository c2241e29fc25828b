/-!
# Markdown tables

Pipes in cells are escaped by a backslash and line feeds become blanks, so that a
cell cannot break its row.
-/

namespace ApiCensus.Markdown

/-- A character of a cell. -/
def escapeChar (c : Char) : List Char :=
  if c = '|' then ['\\', '|'] else if c = '\n' then [' '] else [c]

/-- A cell as it is written. -/
def escape (cell : String) : String :=
  String.ofList (cell.toList.flatMap escapeChar)

/-- A line of a table. -/
def line (cells : List String) : String :=
  "| " ++ " | ".intercalate cells ++ " |"

/-- The rule below the header, with a colon on the right of columns that are
aligned to the right. -/
def rule (rightAligned : List Bool) : String :=
  line (rightAligned.map fun right => if right then "---:" else "---")

/-- A table with a header, a rule and rows; without columns there is none. -/
def table (header : List String) (rows : List (List String)) (rightAligned : List Bool) :
    String :=
  if header.isEmpty then ""
  else
    let aligned := if rightAligned.isEmpty then header.map fun _ => false else rightAligned
    "\n".intercalate (line header :: rule aligned :: rows.map fun row => line (row.map escape))

end ApiCensus.Markdown
