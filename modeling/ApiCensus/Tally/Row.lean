import ApiCensus.Tally.Grouping

/-!
# Rows

The metrics of a group of items, and the ratios derived from them.
-/

namespace ApiCensus

/-- The numbers counted for a group of items. -/
structure Metrics where
  count : Int := 0
  visible : Int := 0
  deprecated : Int := 0
  unstable : Int := 0
  documented : Int := 0
  generics : Int := 0
  constFns : Int := 0
  asyncFns : Int := 0
deriving DecidableEq, Repr

namespace Metrics

/-- Metric-wise sum. -/
def add (left right : Metrics) : Metrics where
  count := left.count + right.count
  visible := left.visible + right.visible
  deprecated := left.deprecated + right.deprecated
  unstable := left.unstable + right.unstable
  documented := left.documented + right.documented
  generics := left.generics + right.generics
  constFns := left.constFns + right.constFns
  asyncFns := left.asyncFns + right.asyncFns

instance : Add Metrics := ⟨add⟩

/-- One for a fact that holds. -/
def one (fact : Bool) : Int :=
  if fact then 1 else 0

/-- The metrics of a single item. Qualifiers count for functions only. -/
def ofItem (item : ClassifiedItem) : Metrics where
  count := 1
  visible := one item.isPublic
  deprecated := one item.isDeprecated
  unstable := one item.isUnstable
  documented := one item.hasDocs
  generics := item.genericCount
  constFns := one (isFunction item.category && item.isConst)
  asyncFns := one (isFunction item.category && item.isAsync)
where
  /-- The categories of functions. -/
  isFunction : Category → Bool
    | .function | .method | .requiredMethod | .providedMethod => true
    | _ => false

/-- The columns of the metrics in their order. -/
def columns : List (String × (Metrics → Int)) :=
  [("count", count), ("public", visible), ("deprecated", deprecated), ("unstable", unstable),
    ("documented", documented), ("generics", generics), ("const_fns", constFns),
    ("async_fns", asyncFns)]

/-- The exact quotient of two counts, zero when there is nothing to divide by. -/
def ratio (part whole : Int) : Rat :=
  if whole = 0 then 0 else (part : Rat) / (whole : Rat)

/-- The columns of the ratios in their order. -/
def ratioColumns : List (String × (Metrics → Rat)) :=
  [("avg_generics", fun metrics => ratio metrics.generics metrics.count),
    ("public_ratio", fun metrics => ratio metrics.visible metrics.count),
    ("deprecated_ratio", fun metrics => ratio metrics.deprecated metrics.count),
    ("documented_ratio", fun metrics => ratio metrics.documented metrics.count)]

end Metrics

/-- The metrics of the items with a category and a second dimension. -/
structure Row where
  category : String
  dimension : Option String := none
  metrics : Metrics := {}
deriving DecidableEq, Repr

/-- What an item is gathered by. -/
abbrev GroupKey := String × Option String

/-- The row with a key and metrics. -/
def Row.ofEntry (entry : GroupKey × Metrics) : Row :=
  ⟨entry.1.1, entry.1.2, entry.2⟩

/-- What rows are ordered by. -/
def Row.key (row : Row) : String × String :=
  (row.category, row.dimension.getD "")

/-- Lexicographic order of pairs of texts by code points. -/
def keyLe (left right : String × String) : Bool :=
  decide (left.1 < right.1) || (left.1 == right.1 && !decide (right.2 < left.2))

end ApiCensus
