import ApiCensus.Tally.Counter
import Mathlib.Algebra.BigOperators.Group.List.Basic
import Mathlib.Data.List.Nodup
import Mathlib.Data.String.Basic
import Mathlib.Order.Lattice

/-!
# Tables of sums

Entries are pairs of a key and an amount.  A table merges entries if it has their keys, each
once and in order, with the sum of the amounts under each key.  Entries determine the table
that merges them, whatever order they come in, and nothing is lost on the way: the amounts of
the table have the same sum as those of the entries.
-/

namespace ApiCensus

theorem pairwise_mergeSort_of_rank {α ω : Type} [LinearOrder ω] (rank : α → ω) {le : α → α → Bool}
    (agrees : ∀ left right, le left right = true ↔ rank left ≤ rank right) (elements : List α) :
    (elements.mergeSort le).Pairwise fun left right => rank left ≤ rank right := by
  have ordered : (elements.mergeSort le).Pairwise fun left right => le left right = true := by
    apply List.pairwise_mergeSort
    · intro left middle right first second
      rw [agrees] at first second ⊢
      exact first.trans second
    · intro left right
      rw [Bool.or_eq_true, agrees, agrees]
      exact le_total _ _
  exact ordered.imp fun before => (agrees _ _).mp before

section

variable {κ μ ω : Type} [DecidableEq κ] [AddCommMonoid μ] [LinearOrder ω]

/-- What entries amount to under a key. -/
def amountUnder (entries : List (κ × μ)) (key : κ) : μ :=
  ((entries.filter (·.1 = key)).map (·.2)).sum

/-- The table has the keys of the entries, each once and in the order of their ranks, with
what the entries amount to under them. -/
structure Merges (rank : κ → ω) (entries table : List (κ × μ)) : Prop where
  keys : ∀ key, key ∈ table.map (·.1) ↔ key ∈ entries.map (·.1)
  amounts : ∀ key, amountUnder table key = amountUnder entries key
  sorted : (table.map (·.1)).Pairwise fun left right => rank left < rank right

@[simp] theorem amountUnder_nil (key : κ) : amountUnder ([] : List (κ × μ)) key = 0 := rfl

theorem amountUnder_cons (entry : κ × μ) (entries : List (κ × μ)) (key : κ) :
    amountUnder (entry :: entries) key =
      (if entry.1 = key then entry.2 else 0) + amountUnder entries key := by
  unfold amountUnder
  by_cases same : entry.1 = key
  · simp [same]
  · simp [same]

theorem amountUnder_append (left right : List (κ × μ)) (key : κ) :
    amountUnder (left ++ right) key = amountUnder left key + amountUnder right key := by
  simp [amountUnder]

theorem amountUnder_of_perm {left right : List (κ × μ)} (permuted : left.Perm right) (key : κ) :
    amountUnder left key = amountUnder right key :=
  ((permuted.filter _).map _).sum_eq

theorem amountUnder_of_not_mem {entries : List (κ × μ)} {key : κ}
    (absent : key ∉ entries.map (·.1)) : amountUnder entries key = 0 := by
  have none : entries.filter (·.1 = key) = [] := by
    apply List.filter_eq_nil_iff.mpr
    intro entry member same
    exact absent (List.mem_map.mpr ⟨entry, member, by simpa using same⟩)
  rw [amountUnder, none]
  rfl

theorem amountUnder_of_mem {table : List (κ × μ)} (distinct : (table.map (·.1)).Nodup)
    {entry : κ × μ} (member : entry ∈ table) : amountUnder table entry.1 = entry.2 := by
  induction table with
  | nil => cases member
  | cons first rest induction =>
      rw [List.map_cons, List.nodup_cons] at distinct
      rw [amountUnder_cons]
      rcases List.mem_cons.mp member with rfl | later
      · simp [amountUnder_of_not_mem distinct.1]
      · have different : first.1 ≠ entry.1 := by
          intro same
          exact distinct.1 (same ▸ List.mem_map_of_mem later)
        simp [different, induction distinct.2 later]

theorem amountUnder_filter (keep : κ → Bool) (entries : List (κ × μ)) (key : κ) :
    amountUnder (entries.filter (keep ·.1)) key =
      if keep key then amountUnder entries key else 0 := by
  induction entries with
  | nil => simp
  | cons entry entries induction =>
      rw [amountUnder_cons]
      by_cases same : entry.1 = key
      · subst same
        by_cases kept : keep entry.1 = true
        · simp [kept, amountUnder_cons, induction]
        · simp [kept, induction]
      · by_cases kept : keep entry.1 = true
        · simp [kept, same, amountUnder_cons, induction]
        · simp [kept, same, induction]

/-- In a table with distinct keys an entry is known by its key. -/
theorem mem_iff_of_distinct {table : List (κ × μ)} (distinct : (table.map (·.1)).Nodup)
    {entry : κ × μ} :
    entry ∈ table ↔ entry.1 ∈ table.map (·.1) ∧ entry.2 = amountUnder table entry.1 := by
  constructor
  · intro member
    exact ⟨List.mem_map_of_mem member, (amountUnder_of_mem distinct member).symm⟩
  · rintro ⟨inside, amount⟩
    obtain ⟨found, member, same⟩ := List.mem_map.mp inside
    have foundAmount := amountUnder_of_mem distinct member
    rw [same, ← amount] at foundAmount
    rwa [Prod.ext same.symm foundAmount]

/-! ### Adding entries one after the other -/

theorem mem_addUnder_keys {key other : κ} {amount : μ} {table : List (κ × μ)} :
    other ∈ (addUnder key amount table).map (·.1) ↔ other = key ∨ other ∈ table.map (·.1) := by
  induction table with
  | nil => simp [addUnder]
  | cons entry rest induction =>
      obtain ⟨present, sum⟩ := entry
      rw [addUnder]
      split
      · rename_i same
        simp [same]
      · rw [List.map_cons, List.mem_cons, induction, List.map_cons, List.mem_cons]
        exact or_left_comm

theorem nodup_addUnder {table : List (κ × μ)} (distinct : (table.map (·.1)).Nodup) (key : κ)
    (amount : μ) : ((addUnder key amount table).map (·.1)).Nodup := by
  induction table with
  | nil => simp [addUnder]
  | cons entry rest induction =>
      obtain ⟨present, sum⟩ := entry
      rw [List.map_cons, List.nodup_cons] at distinct
      rw [addUnder]
      split
      · exact List.nodup_cons.mpr distinct
      · rename_i different
        rw [List.map_cons, List.nodup_cons]
        refine ⟨fun member => ?_, induction distinct.2⟩
        rcases mem_addUnder_keys.mp member with same | later
        · exact different same
        · exact distinct.1 later

theorem amountUnder_addUnder (key other : κ) (amount : μ) (table : List (κ × μ)) :
    amountUnder (addUnder key amount table) other =
      amountUnder table other + if key = other then amount else 0 := by
  induction table with
  | nil => simp [addUnder, amountUnder_cons]
  | cons entry rest induction =>
      obtain ⟨present, sum⟩ := entry
      rw [addUnder]
      split
      · rename_i same
        subst same
        rw [amountUnder_cons, amountUnder_cons]
        split
        · rw [add_right_comm]
        · rw [add_zero]
      · rw [amountUnder_cons, amountUnder_cons, induction, add_assoc]

/-- One pass over entries keeps the keys distinct and adds each amount under its key. -/
theorem foldl_addUnder (table : List (κ × μ)) (distinct : (table.map (·.1)).Nodup)
    (entries : List (κ × μ)) :
    let summed := entries.foldl (fun table entry => addUnder entry.1 entry.2 table) table
    (summed.map (·.1)).Nodup ∧
      (∀ key, key ∈ summed.map (·.1) ↔ key ∈ table.map (·.1) ∨ key ∈ entries.map (·.1)) ∧
      ∀ key, amountUnder summed key = amountUnder table key + amountUnder entries key := by
  induction entries generalizing table with
  | nil => simp [distinct]
  | cons entry entries induction =>
      obtain ⟨nodup, keys, amounts⟩ := induction _ (nodup_addUnder distinct entry.1 entry.2)
      refine ⟨nodup, fun key => ?_, fun key => ?_⟩
      · rw [List.foldl_cons, keys, mem_addUnder_keys, List.map_cons, List.mem_cons]
        tauto
      · rw [List.foldl_cons, amounts, amountUnder_addUnder, amountUnder_cons, add_assoc]

theorem nodup_accumulate (entries : List (κ × μ)) : ((accumulate entries).map (·.1)).Nodup :=
  (foldl_addUnder [] List.nodup_nil entries).1

theorem mem_accumulate_keys {entries : List (κ × μ)} {key : κ} :
    key ∈ (accumulate entries).map (·.1) ↔ key ∈ entries.map (·.1) := by
  rw [accumulate, (foldl_addUnder [] List.nodup_nil entries).2.1]
  simp

theorem amountUnder_accumulate (entries : List (κ × μ)) (key : κ) :
    amountUnder (accumulate entries) key = amountUnder entries key := by
  rw [accumulate, (foldl_addUnder [] List.nodup_nil entries).2.2, amountUnder_nil, zero_add]

/-- The amounts under distinct keys that cover all entries have the sum of all amounts. -/
theorem sum_amounts {keys : List κ} (distinct : keys.Nodup) {entries : List (κ × μ)}
    (covered : ∀ entry ∈ entries, entry.1 ∈ keys) :
    (keys.map (amountUnder entries)).sum = (entries.map (·.2)).sum := by
  induction entries with
  | nil =>
      have zero : amountUnder ([] : List (κ × μ)) = fun _ => 0 := rfl
      simp [zero]
  | cons entry entries induction =>
      obtain ⟨inside, others⟩ := List.forall_mem_cons.mp covered
      have single : (keys.map fun key => if entry.1 = key then entry.2 else 0).sum = entry.2 := by
        rw [List.sum_map_eq_nsmul_single entry.1]
        · rw [List.count_eq_one_of_mem distinct inside, one_nsmul, if_pos rfl]
        · intro other different _
          rw [if_neg (Ne.symm different)]
      have split : keys.map (amountUnder (entry :: entries)) =
          keys.map fun key => (if entry.1 = key then entry.2 else 0) + amountUnder entries key :=
        List.map_congr_left fun key _ => amountUnder_cons entry entries key
      rw [split, List.sum_map_add, single, induction others, List.map_cons, List.sum_cons]

namespace Merges

variable {rank : κ → ω} {entries others table : List (κ × μ)}

theorem distinct (merges : Merges rank entries table) : (table.map (·.1)).Nodup := by
  refine merges.sorted.imp ?_
  intro left right before same
  exact lt_irrefl (rank right) (same ▸ before)

theorem mem_iff (merges : Merges rank entries table) {entry : κ × μ} :
    entry ∈ table ↔ entry.1 ∈ entries.map (·.1) ∧ entry.2 = amountUnder entries entry.1 := by
  rw [← merges.keys, ← merges.amounts]
  exact mem_iff_of_distinct merges.distinct

/-- Merging loses nothing and counts nothing twice. -/
theorem sum_eq (merges : Merges rank entries table) :
    (table.map (·.2)).sum = (entries.map (·.2)).sum := by
  have same : amountUnder table = amountUnder entries := funext merges.amounts
  rw [← sum_amounts merges.distinct fun entry member => List.mem_map_of_mem member, same]
  exact sum_amounts merges.distinct fun entry member =>
    (merges.keys _).mpr (List.mem_map_of_mem member)

theorem of_perm (merges : Merges rank entries table) (permuted : entries.Perm others) :
    Merges rank others table where
  keys key := (merges.keys key).trans (permuted.map _).mem_iff
  amounts key := (merges.amounts key).trans (amountUnder_of_perm permuted key)
  sorted := merges.sorted

/-- Entries determine the table that merges them. -/
theorem unique {other : List (κ × μ)} (merges : Merges rank entries table)
    (also : Merges rank entries other) : table = other := by
  have permuted : table.Perm other := by
    refine (List.perm_ext_iff_of_nodup merges.distinct.of_map also.distinct.of_map).mpr ?_
    intro entry
    rw [merges.mem_iff, also.mem_iff]
  have ordered := List.pairwise_map.mp merges.sorted
  have alsoOrdered := List.pairwise_map.mp also.sorted
  refine permuted.eq_of_pairwise ?_ ordered alsoOrdered
  intro left right _ _ before after
  exact absurd before (lt_asymm after)

/-- One pass over the entries gives the table in some order. -/
theorem perm_accumulate (merges : Merges rank entries table) :
    (accumulate entries).Perm table := by
  have distinct := nodup_accumulate entries
  refine (List.perm_ext_iff_of_nodup distinct.of_map merges.distinct.of_map).mpr ?_
  intro entry
  rw [mem_iff_of_distinct distinct, merges.mem_iff, mem_accumulate_keys, amountUnder_accumulate]

/-- Where parts of the entries are merged first, merging their tables gives the same. -/
theorem of_parts {parts tables : List (List (κ × μ))}
    (merged : List.Forall₂ (Merges rank) parts tables)
    (merges : Merges rank parts.flatten table) : Merges rank tables.flatten table := by
  have same : (∀ key, key ∈ parts.flatten.map (·.1) ↔ key ∈ tables.flatten.map (·.1)) ∧
      ∀ key, amountUnder parts.flatten key = amountUnder tables.flatten key := by
    clear merges
    induction merged with
    | nil => simp
    | cons first _ induction =>
        simp only [List.flatten_cons, List.map_append, List.mem_append, amountUnder_append,
          first.keys, first.amounts, induction.1, induction.2, implies_true, and_self]
  constructor
  · intro key
    rw [merges.keys, same.1]
  · intro key
    rw [merges.amounts, same.2]
  · exact merges.sorted

/-- A table whose keys are in order merges itself. -/
theorem of_sorted (sorted : (table.map (·.1)).Pairwise fun left right => rank left < rank right) :
    Merges rank table table :=
  ⟨fun _ => Iff.rfl, fun _ => rfl, sorted⟩

theorem filter (merges : Merges rank entries table) (keep : κ → Bool) :
    Merges rank (entries.filter (keep ·.1)) (table.filter (keep ·.1)) where
  keys key := by
    have parted : ∀ all : List (κ × μ),
        (all.filter (keep ·.1)).map (·.1) = (all.map (·.1)).filter keep :=
      fun all => List.filter_map.symm
    rw [parted, parted, List.mem_filter, List.mem_filter, merges.keys]
  amounts key := by
    rw [amountUnder_filter, amountUnder_filter, merges.amounts]
  sorted := merges.sorted.sublist (List.filter_sublist.map _)

/-- Merging under coarser keys what has been merged under finer ones gives what merging the
entries under the coarser keys gives. -/
theorem of_regrouped {κ' ω' : Type} [DecidableEq κ'] [LinearOrder ω'] {rank' : κ' → ω'}
    {coarse : List (κ' × μ)} (merges : Merges rank entries table) (coarser : κ → κ')
    (regrouped : Merges rank' (table.map fun entry => (coarser entry.1, entry.2)) coarse) :
    Merges rank' (entries.map fun entry => (coarser entry.1, entry.2)) coarse := by
  have under : ∀ (all : List (κ × μ)) key,
      amountUnder (all.map fun entry => (coarser entry.1, entry.2)) key =
        ((all.filter (coarser ·.1 = key)).map (·.2)).sum := by
    intro all key
    rw [amountUnder, List.filter_map, List.map_map]
    rfl
  constructor
  · intro key
    rw [regrouped.keys, List.map_map, List.map_map]
    change key ∈ table.map (coarser ∘ (·.1)) ↔ key ∈ entries.map (coarser ∘ (·.1))
    rw [← List.map_map, ← List.map_map, List.mem_map, List.mem_map]
    simp only [merges.keys]
  · intro key
    rw [regrouped.amounts, under, under]
    exact (merges.filter fun finer => coarser finer = key).sum_eq
  · exact regrouped.sorted

/-- A table merges entries if it is what one pass over them gives, put in order, and no two of
the keys have the same rank. -/
theorem of_accumulated (permuted : table.Perm (accumulate entries))
    (ordered : table.Pairwise fun left right => rank left.1 ≤ rank right.1)
    (ranked : ∀ left ∈ entries.map (·.1), ∀ right ∈ entries.map (·.1),
      rank left = rank right → left = right) :
    Merges rank entries table := by
  have sameKeys : (table.map (·.1)).Perm ((accumulate entries).map (·.1)) := permuted.map _
  have distinct : (table.map (·.1)).Nodup := sameKeys.nodup_iff.mpr (nodup_accumulate entries)
  have keys : ∀ key, key ∈ table.map (·.1) ↔ key ∈ entries.map (·.1) := by
    intro key
    rw [sameKeys.mem_iff, mem_accumulate_keys]
  refine ⟨keys, fun key => ?_, ?_⟩
  · rw [amountUnder_of_perm permuted, amountUnder_accumulate]
  · have ordered : (table.map (·.1)).Pairwise fun left right => rank left ≤ rank right :=
      List.pairwise_map.mpr ordered
    refine (ordered.and distinct).imp_of_mem ?_
    intro left right leftMember rightMember both
    refine lt_of_le_of_ne both.1 fun same => both.2 ?_
    exact ranked left ((keys left).mp leftMember) right ((keys right).mp rightMember) same

/-- Amounts may be taken over into others before or after merging, if that is additive. -/
theorem map_amounts {ν : Type} [AddCommMonoid ν] (merges : Merges rank entries table)
    (takeOver : μ →+ ν) :
    Merges rank (entries.map fun entry => (entry.1, takeOver entry.2))
      (table.map fun entry => (entry.1, takeOver entry.2)) := by
  have under : ∀ (all : List (κ × μ)) key,
      amountUnder (all.map fun entry => (entry.1, takeOver entry.2)) key =
        takeOver (amountUnder all key) := by
    intro all key
    induction all with
    | nil => exact takeOver.map_zero.symm
    | cons entry all induction =>
        rw [List.map_cons, amountUnder_cons, amountUnder_cons, induction, takeOver.map_add]
        split <;> simp
  have sameKeys : ∀ all : List (κ × μ),
      (all.map fun entry => (entry.1, takeOver entry.2)).map (·.1) = all.map (·.1) :=
    fun all => List.map_map
  constructor
  · intro key
    rw [sameKeys, sameKeys, merges.keys]
  · intro key
    rw [under, under, merges.amounts]
  · rw [sameKeys]
    exact merges.sorted

end Merges

/-- Adding entries up merges them by their texts. -/
theorem addUp_merges (entries : List (String × μ)) : Merges id entries (addUp entries) := by
  refine Merges.of_accumulated (List.mergeSort_perm _ _)
    (pairwise_mergeSort_of_rank Prod.fst ?_ _) fun _ _ _ _ same => same
  intro left right
  rw [Bool.not_eq_true', decide_eq_false_iff_not, not_lt]

end

end ApiCensus
