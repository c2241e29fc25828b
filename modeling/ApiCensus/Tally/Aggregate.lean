import ApiCensus.Tally.Row

/-!
# Aggregating items

Items are gathered by category and second dimension.  One pass over them adds the
metrics of each to those of its group; each group then becomes a row.  Rows are
sorted, and no group is empty.  Items below an excluded path are left out
beforehand.
-/

namespace ApiCensus

/-- The group of an item. -/
def Grouping.key (grouping : Grouping) (item : ClassifiedItem) : GroupKey :=
  (item.category.name, grouping.dimensionOf item)

/-- What an item adds to its group. -/
def Grouping.entry (grouping : Grouping) (item : ClassifiedItem) : GroupKey × Metrics :=
  (grouping.key item, Metrics.ofItem item)

/-- The rows of items under a grouping, sorted by key. -/
def aggregate (grouping : Grouping) (items : List ClassifiedItem) : List Row :=
  ((accumulate (items.map grouping.entry)).map Row.ofEntry).mergeSort
    fun left right => keyLe left.key right.key

/-- Whether a path starts with one of the excluded beginnings. One before that
has to be a text. -/
def startsExcluded (path : String) : List Value → Except ShapeError Bool
  | [] => .ok false
  | .text start :: rest =>
      if start.toList.isPrefixOf path.toList then .ok true else startsExcluded path rest
  | _ :: _ => .error .unsuited

/-- Whether an item lies below one of the excluded paths. -/
def isExcluded (excluded : Value) (item : ClassifiedItem) : Except ShapeError Bool := do
  if excluded.isTruthy then startsExcluded item.path (← excluded.members) else return false

/-- The items that lie below no excluded path, and the number of the others. -/
def filterExcluded (excluded : Value) :
    List ClassifiedItem → Except ShapeError (List ClassifiedItem × Nat)
  | [] => .ok ([], 0)
  | item :: rest => do
      let drop ← isExcluded excluded item
      let (kept, count) ← filterExcluded excluded rest
      return if drop then (kept, count + 1) else (item :: kept, count)

end ApiCensus
