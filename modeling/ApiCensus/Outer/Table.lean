import ApiCensus.Text.Blank

/-!
# Text tables

Tables drawn with characters.  A layout tells which rules are drawn, how rows are
fenced and how far cells are padded.  Columns are as wide as their widest cell
and leave room around their header; trailing blanks of a line are dropped.
-/

namespace ApiCensus.Table

/-- On which side of its column a cell stands. Decimal cells stand on the right,
with their decimal points below each other. -/
inductive Align
  | left
  | right
  | decimal
  | center
deriving DecidableEq, Repr

/-- The characters of a rule. -/
structure Rule where
  left : String
  fill : Char
  cross : String
  right : String

/-- What stands before, between and after the cells of a row. -/
structure Fence where
  left : String
  between : String
  right : String

/-- The rule below the header: none, a plain one, or one with colons that show
the alignment of the columns. -/
inductive HeaderRule
  | none
  | plain (rule : Rule)
  | colons

/-- How a table is drawn. -/
structure Layout where
  above : Option Rule := none
  belowHeader : HeaderRule := .none
  between : Option Rule := none
  below : Option Rule := none
  header : Fence
  row : Fence
  padding : Nat
  /-- How much wider than its header a column is at least. -/
  headerRoom : Nat := 2
  /-- The text in place of an empty first cell. -/
  emptyFirst : Option String := none
  /-- Columns whose alignment is not given stand in the middle. -/
  centered : Bool := false

namespace Layout

/-- Cells fenced by one text on all sides. -/
def fencedBy (bar : String) : Fence :=
  ⟨bar, bar, bar⟩

/-- Cells with a text between them only. -/
def spacedBy (gap : String) : Fence :=
  ⟨"", gap, ""⟩

/-- A rule with its ends and crossings. -/
def rule (left : String) (fill : Char) (cross right : String) : Rule :=
  ⟨left, fill, cross, right⟩

/-- Columns two blanks apart, with dashes below the header. -/
def simple : Layout where
  belowHeader := .plain (rule "" '-' "  " "")
  header := spacedBy "  "
  row := spacedBy "  "
  padding := 0

/-- A frame with rules between the rows, or without them. -/
def framed (above head below : Rule) (between : Option Rule) (bar : String) : Layout where
  above := some above
  belowHeader := .plain head
  between
  below := some below
  header := fencedBy bar
  row := fencedBy bar
  padding := 1

/-- The rule `+---+---+`. -/
def plusRule (fill : Char) : Rule :=
  rule "+" fill "+" "+"

/-- Lines fenced by bars with a rule below the header only. -/
def barred (head : HeaderRule) : Layout where
  belowHeader := head
  header := fencedBy "|"
  row := fencedBy "|"
  padding := 1

/-- The layouts by name. -/
def named : List (String × Layout) :=
  [("simple", simple),
    ("plain", { simple with belowHeader := .none }),
    ("github", barred (.plain (rule "|" '-' "|" "|"))),
    ("pipe", barred .colons),
    ("orgtbl", barred (.plain (rule "|" '-' "+" "|"))),
    ("psql", framed (plusRule '-') (rule "|" '-' "+" "|") (plusRule '-') none "|"),
    ("outline", framed (plusRule '-') (plusRule '=') (plusRule '-') none "|"),
    ("grid", framed (plusRule '-') (plusRule '=') (plusRule '-') (some (plusRule '-')) "|"),
    ("pretty", { framed (plusRule '-') (plusRule '-') (plusRule '-') none "|" with
      headerRoom := 0, centered := true }),
    ("presto", { barred (.plain (rule "" '-' "+" "")) with
      header := spacedBy "|", row := spacedBy "|" }),
    ("rst", { simple with
      above := some (rule "" '=' "  " ""), belowHeader := .plain (rule "" '=' "  " ""),
      below := some (rule "" '=' "  " ""), emptyFirst := some ".." }),
    ("jira", { barred .none with header := fencedBy "||" }),
    ("youtrack", { barred .none with
      header := ⟨"|| ", " || ", " || "⟩, row := ⟨"| ", " | ", " |"⟩ }),
    ("tsv", { simple with
      belowHeader := .none, header := spacedBy "\t", row := spacedBy "\t" }),
    ("simple_grid", framed (rule "┌" '─' "┬" "┐") (rule "├" '─' "┼" "┤")
      (rule "└" '─' "┴" "┘") (some (rule "├" '─' "┼" "┤")) "│"),
    ("rounded_grid", framed (rule "╭" '─' "┬" "╮") (rule "├" '─' "┼" "┤")
      (rule "╰" '─' "┴" "╯") (some (rule "├" '─' "┼" "┤")) "│"),
    ("heavy_grid", framed (rule "┏" '━' "┳" "┓") (rule "┣" '━' "╋" "┫")
      (rule "┗" '━' "┻" "┛") (some (rule "┣" '━' "╋" "┫")) "┃"),
    ("mixed_grid", framed (rule "┍" '━' "┯" "┑") (rule "┝" '━' "┿" "┥")
      (rule "┕" '━' "┷" "┙") (some (rule "├" '─' "┼" "┤")) "│"),
    ("double_grid", framed (rule "╔" '═' "╦" "╗") (rule "╠" '═' "╬" "╣")
      (rule "╚" '═' "╩" "╝") (some (rule "╠" '═' "╬" "╣")) "║"),
    ("fancy_grid", framed (rule "╒" '═' "╤" "╕") (rule "╞" '═' "╪" "╡")
      (rule "╘" '═' "╧" "╛") (some (rule "├" '─' "┼" "┤")) "│"),
    ("simple_outline", framed (rule "┌" '─' "┬" "┐") (rule "├" '─' "┼" "┤")
      (rule "└" '─' "┴" "┘") none "│"),
    ("rounded_outline", framed (rule "╭" '─' "┬" "╮") (rule "├" '─' "┼" "┤")
      (rule "╰" '─' "┴" "╯") none "│"),
    ("heavy_outline", framed (rule "┏" '━' "┳" "┓") (rule "┣" '━' "╋" "┫")
      (rule "┗" '━' "┻" "┛") none "┃"),
    ("mixed_outline", framed (rule "┍" '━' "┯" "┑") (rule "┝" '━' "┿" "┥")
      (rule "┕" '━' "┷" "┙") none "│"),
    ("double_outline", framed (rule "╔" '═' "╦" "╗") (rule "╠" '═' "╬" "╣")
      (rule "╚" '═' "╩" "╝") none "║"),
    ("fancy_outline", framed (rule "╒" '═' "╤" "╕") (rule "╞" '═' "╪" "╡")
      (rule "╘" '═' "╧" "╛") none "│")]

/-- The layout with a name; every other name stands for the simple layout. -/
def ofName (name : String) : Layout :=
  (named.lookup name).getD simple

end Layout

/-- Blanks in a row. -/
def blanks (count : Nat) : String :=
  String.ofList (List.replicate count ' ')

/-- The text filled up to a width on the side that its alignment leaves free. -/
def pad (align : Align) (width : Nat) (text : String) : String :=
  let free := width - text.length
  match align with
  | .left => text ++ blanks free
  | .right | .decimal => blanks free ++ text
  | .center => blanks (free / 2) ++ text ++ blanks (free - free / 2)

/-- How many characters follow the decimal point of a number, which is written
with digits and one point; -1 for what is no such number. -/
def afterPoint (text : String) : Int :=
  match text.toList.dropWhile (· != '.') with
  | [] => -1
  | _ :: rest => rest.length

/-- Cells with blanks after them, so that their decimal points meet when they
stand on the right. -/
def alignPoints (cells : List String) : List String :=
  let most := (cells.map afterPoint).foldl max (-1)
  cells.map fun cell => cell ++ blanks (most - afterPoint cell).toNat

/-- A column: its header, its alignment, its cells and its width. -/
structure Column where
  header : String
  align : Align
  cells : List String
  width : Nat

/-- The column of a header and cells. -/
def column (layout : Layout) (align : Align) (header : String) (cells : List String) : Column :=
  let trimmed := cells.map Text.trim
  let cells := if align = .decimal then alignPoints trimmed else trimmed
  let width := (cells.map String.length).foldl max (header.length + layout.headerRoom)
  ⟨header, align, cells, width⟩

/-- A line of cells in a fence, without trailing blanks. -/
def fenced (fence : Fence) (cells : List String) : String :=
  Text.trimEnd (fence.left ++ fence.between.intercalate cells ++ fence.right)

/-- The width of a column with its padding. -/
def paddedWidth (layout : Layout) (column : Column) : Nat :=
  column.width + 2 * layout.padding

/-- A rule across columns. -/
def ruleLine (layout : Layout) (columns : List Column) (rule : Rule) : String :=
  fenced ⟨rule.left, rule.cross, rule.right⟩
    (columns.map fun column =>
      String.ofList (List.replicate (paddedWidth layout column) rule.fill))

/-- The segment of a rule with colons that shows an alignment; an empty table
shows none. -/
def colonSegment (shown : Bool) (align : Align) (width : Nat) : String :=
  let dashes (count : Nat) := String.ofList (List.replicate count '-')
  if shown then
    match align with
    | .left => ":" ++ dashes (width - 1)
    | .right | .decimal => dashes (width - 1) ++ ":"
    | .center => ":" ++ dashes (width - 2) ++ ":"
  else dashes width

/-- The line below the header. -/
def headerRuleLine? (layout : Layout) (isEmpty : Bool) (columns : List Column) : Option String :=
  match layout.belowHeader with
  | .none => none
  | .plain rule => some (ruleLine layout columns rule)
  | .colons =>
      some ("|" ++ "|".intercalate (columns.map fun column =>
        colonSegment (!isEmpty) column.align (paddedWidth layout column)) ++ "|")

/-- A row of texts, each standing in its column. -/
def rowLine (layout : Layout) (fence : Fence) (columns : List Column) (cells : List String) :
    String :=
  let margin := blanks layout.padding
  fenced fence (List.zipWith (fun column cell =>
    margin ++ pad column.align column.width cell ++ margin) columns cells)

/-- The rows of cells by lines instead of columns. -/
def cellRows (columns : List Column) (count : Nat) : List (List String) :=
  (List.range count).map fun position =>
    columns.map fun column => (column.cells[position]?).getD ""

/-- Lines with another line between each two of them. -/
def interleave (between : Option String) (lines : List String) : List String :=
  match between with
  | none => lines
  | some divider => lines.intersperse divider

/-- Draw columns with `count` rows. -/
def draw (layout : Layout) (columns : List Column) (count : Nat) : String :=
  let rule (rule : Option Rule) := rule.map (ruleLine layout columns)
  let rows := (cellRows columns count).map (rowLine layout layout.row columns)
  let lines := (rule layout.above).toList ++
    [rowLine layout layout.header columns (columns.map (·.header))] ++
    (headerRuleLine? layout (count == 0) columns).toList ++
    interleave (rule layout.between) rows ++
    (rule layout.below).toList
  if columns.isEmpty then "" else "\n".intercalate lines

/-- Put the text for an empty first cell in its place. -/
def fillFirst (layout : Layout) (cells : List String) : List String :=
  match layout.emptyFirst, cells with
  | some filler, first :: rest => (if (Text.trim first).isEmpty then filler else first) :: rest
  | _, _ => cells

/-- The cells of a column. -/
def cellsAt (rows : List (List String)) (position : Nat) : List String :=
  rows.map fun row => (row[position]?).getD ""

/-- Draw a table of texts whose columns have the given alignments. -/
def render (layout : Layout) (aligns : List Align) (header : List String)
    (rows : List (List String)) : String :=
  let header := fillFirst layout header
  let rows := rows.map (fillFirst layout)
  let usual : Align := if layout.centered then .center else .left
  let columns := (header.zipIdx).map fun (title, position) =>
    column layout ((aligns[position]?).getD usual) title (cellsAt rows position)
  draw layout columns rows.length

end ApiCensus.Table
