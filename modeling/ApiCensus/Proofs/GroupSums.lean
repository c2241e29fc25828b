import ApiCensus.Proofs.Conservation

/-!
# Rows and summaries as sums over groups

The rows of items under a grouping are known by what they say about the items: they have the
groups of the items, each once and in the order of their keys, with what the items of each
group amount to.  One pass over the items leads to these rows.  A summary of rows adds them up
again, by category and all together, so that it is the same for every grouping.
-/

namespace ApiCensus

variable {grouping : Grouping} {items : List ClassifiedItem} {rows : List Row}

/-! ### Rows -/

theorem amountUnder_entries (grouping : Grouping) (items : List ClassifiedItem) (key : GroupKey) :
    amountUnder (items.map grouping.entry) key =
      Metrics.amount (items.filter (grouping.key · = key)) := by
  rw [← Metrics.sum_ofItem, amountUnder, List.filter_map, List.map_map]
  rfl

/-- The rows have the groups of the items in strictly increasing order, with what the items of
each group amount to. -/
structure SumsGroups (grouping : Grouping) (items : List ClassifiedItem) (rows : List Row) :
    Prop where
  groups : ∀ key, key ∈ rows.map Row.group ↔ key ∈ items.map grouping.key
  increasing : rows.Pairwise fun left right => toLex left.key < toLex right.key
  metrics : ∀ row ∈ rows, row.metrics = Metrics.amount (items.filter (grouping.key · = row.group))

theorem sumsGroups_iff_merges :
    SumsGroups grouping items rows ↔
      Merges groupRank (items.map grouping.entry) (rows.map Row.entry) := by
  have rowKeys : (rows.map Row.entry).map (·.1) = rows.map Row.group := List.map_map
  have itemKeys : (items.map grouping.entry).map (·.1) = items.map grouping.key := List.map_map
  constructor
  · rintro ⟨groups, increasing, metrics⟩
    have sorted : (rows.map Row.group).Pairwise fun left right =>
        groupRank left < groupRank right := List.pairwise_map.mpr increasing
    have distinct : (rows.map Row.group).Nodup := by
      refine sorted.imp ?_
      intro left right before same
      exact lt_irrefl (groupRank right) (same ▸ before)
    refine ⟨?_, ?_, ?_⟩
    · rw [rowKeys, itemKeys]
      exact groups
    · intro key
      by_cases inside : key ∈ rows.map Row.group
      · obtain ⟨row, member, rfl⟩ := List.mem_map.mp inside
        have amount := amountUnder_of_mem (rowKeys ▸ distinct) (List.mem_map_of_mem member)
        rw [amountUnder_entries, ← metrics row member]
        exact amount
      · rw [amountUnder_of_not_mem (rowKeys ▸ inside),
          amountUnder_of_not_mem (itemKeys ▸ mt (groups key).mpr inside)]
    · rw [rowKeys]
      exact sorted
  · intro merges
    refine ⟨?_, ?_, ?_⟩
    · rw [← rowKeys, ← itemKeys]
      exact merges.keys
    · have sorted := merges.sorted
      rw [rowKeys, List.pairwise_map] at sorted
      exact sorted
    · intro row member
      rw [← amountUnder_entries]
      exact (merges.mem_iff.mp (List.mem_map_of_mem member)).2

theorem sumsGroups_aggregate (grouping : Grouping) (items : List ClassifiedItem) :
    SumsGroups grouping items (aggregate grouping items) :=
  sumsGroups_iff_merges.mpr (aggregate_merges grouping items)

/-- Items determine the rows that sum their groups. -/
theorem SumsGroups.eq_aggregate (sums : SumsGroups grouping items rows) :
    rows = aggregate grouping items :=
  List.map_injective_iff.mpr Row.entry_injective
    ((sumsGroups_iff_merges.mp sums).unique (aggregate_merges grouping items))

/-- No row is empty. -/
theorem SumsGroups.one_le_count (sums : SumsGroups grouping items rows) {row : Row}
    (member : row ∈ rows) : 1 ≤ row.metrics.count := by
  obtain ⟨item, inside, same⟩ :=
    List.mem_map.mp ((sums.groups row.group).mp (List.mem_map_of_mem member))
  have counted : item ∈ items.filter (grouping.key · = row.group) :=
    List.mem_filter.mpr ⟨inside, by simpa using same⟩
  rw [sums.metrics row member]
  exact Int.ofNat_le.mpr (List.length_pos_of_mem counted)

/-- The rows of items sum their groups, and no other rows do; every row counts an item, and the
order of the items does not matter.  A single pass that enters each item in the row of its group
gives the same rows before they are put in order. -/
theorem aggregate_sums_groups (grouping : Grouping) (items : List ClassifiedItem) :
    (∀ rows, SumsGroups grouping items rows ↔ rows = aggregate grouping items) ∧
      ((aggregate grouping items).map Row.group).Nodup ∧
      (∀ row ∈ aggregate grouping items, 1 ≤ row.metrics.count) ∧
      (∀ others, items.Perm others → aggregate grouping others = aggregate grouping items) ∧
      (accumulate (items.map grouping.entry)).Perm ((aggregate grouping items).map Row.entry) := by
  have sums := sumsGroups_aggregate grouping items
  have merges := aggregate_merges grouping items
  refine ⟨?_, ?_, fun row member => sums.one_le_count member, ?_, merges.perm_accumulate⟩
  · intro rows
    constructor
    · exact SumsGroups.eq_aggregate
    · rintro rfl
      exact sums
  · have distinct := merges.distinct
    rwa [List.map_map] at distinct
  · intro others permuted
    exact (aggregate_of_perm permuted grouping).symm

/-- Two functions and a structure that is marked like a function. -/
def markedItems : List ClassifiedItem :=
  [{ id := "1", category := .function, crate := "core", isConst := true, genericCount := 2 },
    { id := "2", category := .struct, crate := "core", isConst := true },
    { id := "3", category := .function, crate := "core", visibility := .hidden, isAsync := true,
      stability := .unstable, hasDocs := true }]

/-- The marks of the structure are not counted, and the items may come in any order. -/
theorem markedItems_sum_groups :
    (∃ row ∈ aggregate .crate markedItems, row.group = ("Function", some "core") ∧
      row.metrics = ⟨2, 1, 0, 1, 1, 2, 1, 1⟩ ∧ 1 ≤ row.metrics.count) ∧
    (∃ row ∈ aggregate .crate markedItems, row.group = ("Struct", some "core") ∧
      row.metrics = ⟨1, 1, 0, 0, 0, 0, 0, 0⟩ ∧ 1 ≤ row.metrics.count) ∧
    markedItems.Perm markedItems.reverse ∧
    aggregate .crate markedItems.reverse = aggregate .crate markedItems := by
  obtain ⟨characterized, _, positive, ordered, _⟩ := aggregate_sums_groups .crate markedItems
  have sums := (characterized _).mpr rfl
  have found : ∀ group ∈ markedItems.map (Grouping.key .crate),
      ∃ row ∈ aggregate .crate markedItems, row.group = group ∧
        row.metrics = Metrics.amount (markedItems.filter (Grouping.key .crate · = group)) ∧
        1 ≤ row.metrics.count := by
    intro group inside
    obtain ⟨row, member, rfl⟩ := List.mem_map.mp ((sums.groups group).mpr inside)
    exact ⟨row, member, rfl, sums.metrics row member, positive row member⟩
  refine ⟨found ("Function", some "core") (by decide), found ("Struct", some "core") (by decide),
    (List.reverse_perm markedItems).symm, ordered _ (List.reverse_perm markedItems).symm⟩

theorem group_of_mem_aggregate {row : Row} (member : row ∈ aggregate .category items) :
    row.group = (row.category, none) := by
  obtain ⟨item, _, rfl⟩ := mem_aggregate.mp member
  rfl

/-! ### Summaries -/

/-- A row as an entry of the counts by category. -/
def Row.categoryCount (row : Row) : String × Int :=
  (row.category, row.metrics.count)

/-- Whatever rows are grouped by, in categories their counts merge single items. -/
theorem byCategory_merges (grouping : Grouping) (items : List ClassifiedItem) :
    Merges id (items.map fun item => (item.category.name, (1 : Int)))
      (summarize (aggregate grouping items)).byCategory := by
  have counts := (aggregate_merges grouping items).map_amounts Metrics.countHom
  have regrouped := addUp_merges ((aggregate grouping items).map Row.categoryCount)
  have finer : (aggregate grouping items).map Row.categoryCount =
      (((aggregate grouping items).map Row.entry).map fun entry =>
        (entry.1, Metrics.countHom entry.2)).map fun entry => (entry.1.1, entry.2) := by
    rw [List.map_map, List.map_map]
    rfl
  rw [finer] at regrouped
  have coarser := counts.of_regrouped Prod.fst regrouped
  rw [← finer, List.map_map, List.map_map] at coarser
  exact coarser

/-- Rows by category alone show the counts by category. -/
theorem byCategory_eq_rows (items : List ClassifiedItem) :
    (summarize (aggregate .category items)).byCategory =
      (aggregate .category items).map Row.categoryCount := by
  apply (addUp_merges ((aggregate .category items).map Row.categoryCount)).unique
  apply Merges.of_sorted
  rw [List.map_map, List.pairwise_map]
  refine (sumsGroups_aggregate .category items).increasing.imp_of_mem ?_
  intro left right leftMember rightMember before
  have alone : ∀ row ∈ aggregate .category items, row.key = (row.category, "") := by
    intro row member
    have none : row.dimension = none := congrArg Prod.snd (group_of_mem_aggregate member)
    rw [Row.key, none]
    rfl
  rw [alone left leftMember, alone right rightMember, Prod.Lex.toLex_lt_toLex] at before
  rcases before with less | ⟨_, below⟩
  · exact less
  · exact absurd below (lt_irrefl "")

theorem totals_summarize (rows : List Row) :
    (summarize rows).totals = (rows.map (·.metrics)).sum := by
  rw [List.sum_eq_foldl, List.foldl_map]
  rfl

/-- The summary of rows says the same about the items whatever they are grouped by: its totals
and ratios are those of the items, and its categories are those of the rows by category. -/
theorem summary_ignores_grouping (items : List ClassifiedItem) (grouping other : Grouping) :
    summarize (aggregate grouping items) = summarize (aggregate other items) ∧
      (summarize (aggregate grouping items)).totals = Metrics.amount items ∧
      (Metrics.ratioColumns.map fun ratio => ratio.2 (summarize (aggregate grouping items)).totals) =
        (Metrics.ratioColumns.map fun ratio => ratio.2 (Metrics.amount items)) ∧
      (summarize (aggregate grouping items)).byCategory =
        (aggregate .category items).map fun row => (row.category, row.metrics.count) := by
  have totals : ∀ grouping, (summarize (aggregate grouping items)).totals =
      Metrics.amount items := by
    intro grouping
    rw [totals_summarize, sum_aggregate, Metrics.sum_ofItem]
  have categories : ∀ grouping, (summarize (aggregate grouping items)).byCategory =
      (aggregate .category items).map fun row => (row.category, row.metrics.count) := by
    intro grouping
    exact ((byCategory_merges grouping items).unique (byCategory_merges .category items)).trans
      (byCategory_eq_rows items)
  have summaries : ∀ grouping, summarize (aggregate grouping items) =
      ⟨Metrics.amount items,
        (aggregate .category items).map fun row => (row.category, row.metrics.count)⟩ := by
    intro grouping
    rw [← totals grouping, ← categories grouping]
  refine ⟨?_, totals grouping, ?_, categories grouping⟩
  · rw [summaries grouping, summaries other]
  · rw [totals grouping]

end ApiCensus
