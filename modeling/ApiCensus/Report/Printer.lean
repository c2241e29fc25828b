import ApiCensus.Failure

/-!
# What reports are written with

A report is made of cells.  Two things about writing them down are not the
census's own and are told from outside: how a text table is drawn, and whether a
carriage return alone puts a written field between quotes.  Nothing is assumed
about either.
-/

namespace ApiCensus

/-- What reports are written with. -/
structure Printer where
  /-- Draw a table in the format that a setting names. A flag for each column
  tells whether it stands on the right; a table without rows has no flags. -/
  drawTable : (format : Value) → (header : List String) → (rows : List (List String)) →
    (onRight : List Bool) → Except Failure String
  /-- Whether a carriage return puts a written field between quotes. Writers of
  comma-separated values differ in this. -/
  quotesReturns : Bool

/-- A table of texts, with numeric columns on the right. An empty table shows its
header only. -/
def Printer.table (printer : Printer) (format : Value) (header : List String)
    (rows : List (List String)) (numeric : List Bool) : Except Failure String := do
  let drawn ← printer.drawTable format header rows (if rows.isEmpty then [] else numeric)
  return drawn ++ "\n"

end ApiCensus
