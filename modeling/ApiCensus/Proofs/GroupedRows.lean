import ApiCensus.Analysis.Basic
import ApiCensus.Proofs.KeyedSums
import Mathlib.Algebra.GroupWithZero.Nat
import Mathlib.Algebra.Ring.Int.Defs
import Mathlib.Data.Prod.Lex
import Mathlib.Data.String.Basic

/-!
# Rows as a table of sums

The rows that one pass over items leads to merge the metrics of the items by group: each is the
sum over the items of its group.  What is known about tables of sums then holds of them: the rows
do not depend on the order of the items, and each column of the rows has the sum that it has over
the items.
-/

namespace ApiCensus

/-! ### Metrics -/

namespace Metrics

instance : Zero Metrics := ⟨{}⟩

instance : AddCommMonoid Metrics where
  add_assoc left middle right := by
    change Metrics.add (Metrics.add left middle) right = Metrics.add left (Metrics.add middle right)
    simp [Metrics.add, add_assoc]
  zero_add metrics := by
    change Metrics.add {} metrics = metrics
    simp [Metrics.add]
  add_zero metrics := by
    change Metrics.add metrics {} = metrics
    simp [Metrics.add]
  add_comm left right := by
    change Metrics.add left right = Metrics.add right left
    simp [Metrics.add, add_comm]
  nsmul := nsmulRec

/-- The count of a sum is the sum of the counts. -/
def countHom : Metrics →+ Int where
  toFun := count
  map_zero' := rfl
  map_add' _ _ := rfl

/-- A column of a sum is the sum of the column. -/
theorem column_sum {column : String × (Metrics → Int)} (member : column ∈ columns)
    (all : List Metrics) : column.2 all.sum = (all.map column.2).sum := by
  have additive : column.2 0 = 0 ∧ ∀ left right, column.2 (left + right) =
      column.2 left + column.2 right := by
    simp only [columns, List.mem_cons, List.not_mem_nil, or_false] at member
    rcases member with rfl | rfl | rfl | rfl | rfl | rfl | rfl | rfl <;>
      exact ⟨rfl, fun _ _ => rfl⟩
  induction all with
  | nil => exact additive.1
  | cons metrics rest induction =>
      rw [List.sum_cons, additive.2, induction, List.map_cons, List.sum_cons]

end Metrics

/-! ### Rows -/

/-- What a row is gathered by. -/
def Row.group (row : Row) : GroupKey :=
  (row.category, row.dimension)

/-- A row as an entry of a table. -/
def Row.entry (row : Row) : GroupKey × Metrics :=
  (row.group, row.metrics)

/-- The place of a group among rows: by category and then by dimension. -/
def groupRank (group : GroupKey) : String ×ₗ String :=
  toLex (group.1, group.2.getD "")

/-- The row of a group as its items make it: the sum of their metrics. -/
def groupRow (grouping : Grouping) (items : List ClassifiedItem) (key : GroupKey) : Row where
  category := key.1
  dimension := key.2
  metrics := ((items.filter (grouping.key · = key)).map Metrics.ofItem).sum

theorem Row.entry_injective : Function.Injective Row.entry := by
  rintro ⟨category, dimension, metrics⟩ ⟨category', dimension', metrics'⟩ same
  simpa [Row.entry, Row.group, and_assoc] using same

theorem keyLe_iff (left right : String × String) :
    keyLe left right = true ↔ toLex left ≤ toLex right := by
  simp only [keyLe, Prod.Lex.toLex_le_toLex, Bool.or_eq_true, Bool.and_eq_true, decide_eq_true_eq,
    beq_iff_eq, Bool.not_eq_true', decide_eq_false_iff_not, not_lt]

/-- Under one grouping a group is known by its place. -/
theorem Grouping.key_eq_of_rank_eq {grouping : Grouping} {item other : ClassifiedItem}
    (same : groupRank (grouping.key item) = groupRank (grouping.key other)) :
    grouping.key item = grouping.key other := by
  cases grouping <;> simpa [groupRank, Grouping.key, Grouping.dimensionOf] using same

theorem groupRow_entry (grouping : Grouping) (items : List ClassifiedItem) (key : GroupKey) :
    (groupRow grouping items key).entry = (key, amountUnder (items.map grouping.entry) key) := by
  rw [amountUnder, List.filter_map, List.map_map]
  rfl

/-- The rows of items merge their metrics by group. -/
theorem aggregate_merges (grouping : Grouping) (items : List ClassifiedItem) :
    Merges groupRank (items.map grouping.entry) ((aggregate grouping items).map Row.entry) := by
  refine Merges.of_accumulated ?_ ?_ ?_
  · have rows := (List.mergeSort_perm ((accumulate (items.map grouping.entry)).map Row.ofEntry)
      fun left right => keyLe left.key right.key).map Row.entry
    rw [List.map_map] at rows
    exact rows.trans (.of_eq (List.map_id _))
  · rw [List.pairwise_map]
    exact pairwise_mergeSort_of_rank (fun row : Row => toLex row.key)
      (fun left right => keyLe_iff left.key right.key) _
  · rw [List.map_map]
    intro left leftMember right rightMember same
    obtain ⟨item, _, rfl⟩ := List.mem_map.mp leftMember
    obtain ⟨other, _, rfl⟩ := List.mem_map.mp rightMember
    exact Grouping.key_eq_of_rank_eq same

/-- The rows that one pass over the items leads to are those of the groups. -/
theorem mem_aggregate {grouping : Grouping} {items : List ClassifiedItem} {row : Row} :
    row ∈ aggregate grouping items ↔
      ∃ item ∈ items, groupRow grouping items (grouping.key item) = row := by
  have merges := aggregate_merges grouping items
  have groups : (items.map grouping.entry).map (·.1) = items.map grouping.key := List.map_map
  rw [← List.mem_map_of_injective Row.entry_injective, merges.mem_iff, groups]
  constructor
  · rintro ⟨inside, amount⟩
    obtain ⟨item, member, same⟩ := List.mem_map.mp inside
    refine ⟨item, member, Row.entry_injective ?_⟩
    rw [groupRow_entry, same, ← amount]
  · rintro ⟨item, member, rfl⟩
    rw [groupRow_entry]
    exact ⟨List.mem_map_of_mem member, rfl⟩

/-- The rows of items do not depend on the order of the items. -/
theorem aggregate_of_perm {items others : List ClassifiedItem} (permuted : items.Perm others)
    (grouping : Grouping) : aggregate grouping items = aggregate grouping others := by
  have merges := (aggregate_merges grouping items).of_perm (permuted.map _)
  exact List.map_injective_iff.mpr Row.entry_injective
    (merges.unique (aggregate_merges grouping others))

/-- The rows of items have the metrics of the items, all together. -/
theorem sum_aggregate (grouping : Grouping) (items : List ClassifiedItem) :
    ((aggregate grouping items).map (·.metrics)).sum = (items.map Metrics.ofItem).sum := by
  have total := (aggregate_merges grouping items).sum_eq
  rwa [List.map_map, List.map_map] at total

end ApiCensus
