import ApiCensus.Tally.Aggregate

/-!
# Summaries

The totals over a list of rows, and the counts by category.
-/

namespace ApiCensus

/-- Totals over rows. -/
structure Summary where
  totals : Metrics
  byCategory : List (String × Int)
deriving DecidableEq, Repr

/-- Sum up rows in one pass. -/
def summarize (rows : List Row) : Summary where
  totals := rows.foldl (fun totals row => totals + row.metrics) {}
  byCategory := addUp (rows.map fun row => (row.category, row.metrics.count))

end ApiCensus
