import ApiCensus.Paths.Resolution
import ApiCensus.Report.Csv
import ApiCensus.Report.Markdown
import ApiCensus.Report.Presentation
import ApiCensus.Report.Printer
import ApiCensus.Report.Settings
import ApiCensus.Tally.Summary

/-!
# Reports

Rows in each presentation: comma-separated values, a text table, a Markdown
table, or a summary in words with the warnings and the deprecated items.
-/

namespace ApiCensus.Report

/-- The columns of the rows of a grouping. -/
def columns (grouping : Grouping) : List String :=
  "category" :: grouping.dimension?.toList ++ Metrics.columns.map (·.1) ++
    Metrics.ratioColumns.map (·.1)

/-- The cells of a row. -/
def cells (grouping : Grouping) (precision : Int) (row : Row) : Except Failure (List String) := do
  let counts ← Metrics.columns.mapM fun (_, metric) => Number.writeInteger (metric row.metrics)
  let ratios ← Metrics.ratioColumns.mapM fun (_, ratio) =>
    formatRatio precision (ratio row.metrics)
  let dimension := grouping.dimension?.map fun _ => row.dimension.getD ""
  return row.category :: dimension.toList ++ counts ++ ratios

/-- Which columns hold numbers: all after the key. -/
def numericColumns (grouping : Grouping) : List Bool :=
  let keys := 1 + grouping.dimension?.toList.length
  (columns grouping).zipIdx.map fun (_, position) => decide (keys ≤ position)

/-- A count with its share of the whole. -/
def countWithShare (part whole : Int) : Except Failure String := do
  let count ← Number.writeInteger part
  let share ← formatPercent (Metrics.ratio part whole)
  return s!"{count} ({share})"

/-- The lines on the totals. -/
def totalLines (precision : Int) (totals : Metrics) : Except Failure (List String) := do
  let count ← Number.writeInteger totals.count
  let visible ← countWithShare totals.visible totals.count
  let deprecated ← countWithShare totals.deprecated totals.count
  let unstable ← Number.writeInteger totals.unstable
  let documented ← countWithShare totals.documented totals.count
  let generics ← Number.writeInteger totals.generics
  let average ← formatRatio precision (Metrics.ratio totals.generics totals.count)
  let constFns ← Number.writeInteger totals.constFns
  let asyncFns ← Number.writeInteger totals.asyncFns
  return [
    "API statistics",
    "==============",
    s!"Items: {count}",
    s!"Public items: {visible}",
    s!"Deprecated items: {deprecated}",
    s!"Unstable items: {unstable}",
    s!"Documented items: {documented}",
    s!"Generic parameters: {generics} (average {average} per item)",
    s!"Const functions: {constFns}",
    s!"Async functions: {asyncFns}"]

/-- A text filled up with blanks to a width. -/
def padEnd (width : Nat) (text : String) : String :=
  text ++ String.ofList (List.replicate (width - text.length) ' ')

/-- The lines on the categories. -/
def categoryLines (counts : List (String × Int)) : Except Failure (List String) := do
  if counts.isEmpty then return []
  let width := (counts.map fun (name, _) => name.length).foldl max 0
  let lines ← counts.mapM fun (name, number) => do
    let count ← Number.writeInteger number
    return "  " ++ padEnd width name ++ "  " ++ count
  return "" :: "By category:" :: lines

/-- The lines on the second dimension. -/
def dimensionLines (grouping : Grouping) (rows : List Row) : Except Failure (List String) := do
  let some dimension := grouping.dimension? | return []
  if rows.isEmpty then return []
  let lines ← rows.mapM fun row => do
    let place := (row.dimension.filter (!·.isEmpty)).getD "(root)"
    let count ← Number.writeInteger row.metrics.count
    return s!"  {row.category} / {place}: {count}"
  return "" :: s!"By category and {dimension}:" :: lines

/-- Deprecated items by path and identifier. -/
def sortDeprecated (items : List ClassifiedItem) : List ClassifiedItem :=
  items.mergeSort fun left right => keyLe (left.path, left.id) (right.path, right.id)

/-- The lines on deprecated items. -/
def deprecatedLines (items : List ClassifiedItem) : List String :=
  if items.isEmpty then []
  else
    "" :: "Deprecated:" :: (sortDeprecated items).map fun item =>
      let note := match item.deprecationNote.filter (!·.isEmpty) with
        | some note => ": " ++ note
        | none => ""
      "  - " ++ item.path ++ note

/-- The lines on cycles. -/
def warningLines (warnings : List Cycle) : List String :=
  if warnings.isEmpty then []
  else "" :: "Warnings:" :: warnings.map fun cycle => "  - [resolve] " ++ cycle.message

/-- The summary in words. -/
def renderStats (grouping : Grouping) (precision : Int) (rows : List Row)
    (warnings : List Cycle) (deprecated : List ClassifiedItem) : Except Failure String := do
  let summary := summarize rows
  let totals ← totalLines precision summary.totals
  let categories ← categoryLines summary.byCategory
  let dimensions ← dimensionLines grouping rows
  let lines := totals ++ categories ++ dimensions ++ deprecatedLines deprecated ++
    warningLines warnings
  return "\n".intercalate lines ++ "\n"

/-- A report on rows. -/
def emit (printer : Printer) (presentation : Presentation) (grouping : Grouping)
    (config : Value) (rows : List Row) (warnings : List Cycle)
    (deprecated : List ClassifiedItem) : Except Failure String := do
  let output ← outputSettings config
  let precision ← ratioPrecision output
  if presentation = .stats then
    renderStats grouping precision rows warnings deprecated
  else
    let header := columns grouping
    let body ← rows.mapM (cells grouping precision)
    match presentation with
    | .csv => return Csv.write printer.quotesReturns (header :: body)
    | .markdown => return Markdown.table header body (numericColumns grouping) ++ "\n"
    | _ => printer.table (tableFormat output) header body (numericColumns grouping)

/-- The position of a column; of several with one name, the last. -/
def positionOf (header : List String) (name : String) : Except ShapeError Nat :=
  match header.reverse.findIdx? (· == name) with
  | some fromEnd => .ok (header.length - 1 - fromEnd)
  | none => .error .missingKey

/-- The cell of a record at a position. -/
def cellAt (record : List String) (position : Nat) : Except ShapeError String :=
  match record[position]? with
  | some cell => .ok cell
  | none => .error .missingPosition

/-- Whether the second column of a header is a dimension and no count. -/
def hasDimension (header : List String) : Bool :=
  header[1]?.any fun name => Metrics.columns.all fun column => column.1 != name

/-- The counts of a record by the positions of the columns. -/
def readMetrics (header record : List String) : Except Failure Metrics := do
  let metric (name : String) : Except Failure Int := do
    let cell ← cellAt record (← positionOf header name)
    Number.readInteger cell
  return {
    count := ← metric "count"
    visible := ← metric "public"
    deprecated := ← metric "deprecated"
    unstable := ← metric "unstable"
    documented := ← metric "documented"
    generics := ← metric "generics"
    constFns := ← metric "const_fns"
    asyncFns := ← metric "async_fns" }

/-- The row of a record. -/
def readRow (header record : List String) : Except Failure Row := do
  let category ← cellAt record 0
  let dimension ← if hasDimension header then some <$> cellAt record 1 else pure none
  return { category, dimension, metrics := ← readMetrics header record }

/-- The rows of records that follow a header; empty records are skipped. -/
def readRows (header : List String) : List (Except Failure (List String)) → Except Failure (List Row)
  | [] => .ok []
  | record :: rest => do
      let record ← record
      if record.isEmpty then readRows header rest
      else
        let row ← readRow header record
        return row :: (← readRows header rest)

/-- Read the rows of a report that was written as comma-separated values. Ratios
follow from the counts and are not read. -/
def readCsv (text : String) : Except Failure (List Row) := do
  match Csv.read text with
  | [] => return []
  | header :: records =>
      let header ← header
      if header.isEmpty then return [] else readRows header records

end ApiCensus.Report
