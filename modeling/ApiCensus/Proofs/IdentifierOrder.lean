import ApiCensus.Index.ItemId
import ApiCensus.Proofs.Outcome
import Mathlib.Data.Prod.Lex
import Mathlib.Data.String.Basic

/-!
# The order of identifiers

Sorting succeeds exactly if every identifier has a key, and then it only permutes.
Keys are compared as the lexicographic order of triples does: numbers before
texts, numbers by value, texts by code points.
-/

namespace ApiCensus

namespace ItemId

/-- The identifier has a place in the order of identifiers. -/
def HasKey (id : ItemId) : Prop :=
  ∃ value, key id = .ok value

theorem sort_eq_ok {ids sorted : List ItemId} (success : sort ids = .ok sorted) :
    ∃ keyed : List (IdKey × ItemId),
      List.Forall₂ (fun id pair => key id = .ok pair.1 ∧ pair.2 = id) ids keyed ∧
        sorted = (keyed.mergeSort fun left right => left.1.le right.1).map (·.2) := by
  obtain ⟨keyed, keysOk, sortedOk⟩ := Outcome.bind_eq_ok_iff.mp success
  cases sortedOk
  refine ⟨keyed, ?_, rfl⟩
  apply (Outcome.mapM_eq_ok_iff.mp keysOk).imp
  intro id pair pairOk
  obtain ⟨value, valueOk, same⟩ := Outcome.bind_eq_ok_iff.mp pairOk
  cases same
  exact ⟨valueOk, rfl⟩

theorem sort_perm {ids sorted : List ItemId} (success : sort ids = .ok sorted) :
    sorted.Perm ids := by
  obtain ⟨keyed, related, rfl⟩ := sort_eq_ok success
  have kept : keyed.map (·.2) = ids := by
    clear success
    induction related with
    | nil => rfl
    | cons first _ induction => simp [first.2, induction]
  calc
    ((keyed.mergeSort fun left right => left.1.le right.1).map (·.2)).Perm
        (keyed.map (·.2)) := (List.mergeSort_perm keyed _).map _
    _ = ids := kept

theorem hasKey_of_sort_eq_ok {ids sorted : List ItemId} (success : sort ids = .ok sorted)
    {id : ItemId} (member : id ∈ ids) : HasKey id := by
  obtain ⟨keyed, keysOk, _⟩ := Outcome.bind_eq_ok_iff.mp success
  obtain ⟨pair, _, pairOk⟩ := Outcome.exists_mem_of_mapM keysOk member
  obtain ⟨value, valueOk, _⟩ := Outcome.bind_eq_ok_iff.mp pairOk
  exact ⟨value, valueOk⟩

theorem exists_sort_eq_ok {ids : List ItemId} (keys : ∀ id ∈ ids, HasKey id) :
    ∃ sorted, sort ids = .ok sorted := by
  have pairs : ∀ id ∈ ids, ∃ pair,
      (do return (← key id, id) : Except Number.IntegerError (IdKey × ItemId)) = .ok pair := by
    intro id member
    obtain ⟨value, valueOk⟩ := keys id member
    exact ⟨(value, id), Outcome.bind_eq_ok_iff.mpr ⟨value, valueOk, rfl⟩⟩
  obtain ⟨keyed, keyedOk⟩ := Outcome.exists_mapM_eq_ok pairs
  exact ⟨_, Outcome.bind_eq_ok_iff.mpr ⟨keyed, keyedOk, rfl⟩⟩

/-- Putting identifiers in order fails for the first of them that has no place in it. -/
theorem sort_eq_error_iff {ids : List ItemId} {cause : Number.IntegerError} :
    sort ids = .error cause ↔ ∃ before id after, ids = before ++ id :: after ∧
      (∀ other ∈ before, HasKey other) ∧ key id = .error cause := by
  have fails : ∀ before id after reason, (∀ other ∈ before, HasKey other) →
      key id = .error reason → sort (before ++ id :: after) = .error reason := by
    intro before id after reason keyed failed
    refine Outcome.bind_eq_error_iff.mpr (.inl (Outcome.mapM_of_first ?_ ?_))
    · intro other member
      obtain ⟨value, valueOk⟩ := keyed other member
      exact ⟨(value, other), Outcome.bind_eq_ok_iff.mpr ⟨value, valueOk, rfl⟩⟩
    · exact Outcome.bind_eq_error_iff.mpr (.inl failed)
  constructor
  · intro unsorted
    rcases Outcome.forall_or_first HasKey ids with
      keyed | ⟨before, id, after, split, keyed, unkeyed⟩
    · obtain ⟨sorted, sortedOk⟩ := exists_sort_eq_ok keyed
      cases unsorted.symm.trans sortedOk
    · obtain ⟨reason, failed⟩ := Outcome.exists_eq_error unkeyed
      rw [split, fails before id after reason keyed failed] at unsorted
      cases unsorted
      exact ⟨before, id, after, split, keyed, failed⟩
  · intro first
    obtain ⟨before, id, after, split, keyed, failed⟩ := first
    rw [split]
    exact fails before id after cause keyed failed

theorem forall_mem_keyed {ids : List ItemId} {keyed : List (IdKey × ItemId)}
    (related : List.Forall₂ (fun id pair => key id = .ok pair.1 ∧ pair.2 = id) ids keyed) :
    ∀ pair ∈ keyed, key pair.2 = .ok pair.1 := by
  induction related with
  | nil => simp
  | cons first _ induction =>
      obtain ⟨keyOk, rfl⟩ := first
      exact List.forall_mem_cons.mpr ⟨keyOk, induction⟩

theorem sort_eq_self {ids : List ItemId} {keyed : List (IdKey × ItemId)}
    (keysOk : ids.mapM (fun id => return (← key id, id)) = .ok keyed)
    (ordered : keyed.Pairwise fun left right => left.1.le right.1 = true) :
    sort ids = .ok (keyed.map (·.2)) := by
  refine Outcome.bind_eq_ok_iff.mpr ⟨keyed, keysOk, ?_⟩
  rw [List.mergeSort_of_pairwise ordered]
  rfl

theorem sort_singleton {id : ItemId} (keyed : id.HasKey) : sort [id] = .ok [id] := by
  obtain ⟨key, keyOk⟩ := keyed
  apply @sort_eq_self [id] [(key, id)]
  · rw [Outcome.mapM_eq_ok_iff]
    exact .cons (Outcome.bind_eq_ok_iff.mpr ⟨key, keyOk, rfl⟩) .nil
  · exact List.pairwise_singleton _ _

end ItemId

namespace IdKey

/-- A key as a triple: numbers in the first group, texts in the second. -/
def triple : IdKey → ℕ ×ₗ ℤ ×ₗ String
  | .number value => toLex (0, toLex (value, ""))
  | .text content => toLex (1, toLex (0, content))

/-- Keys are compared as their triples are. -/
theorem lt_iff (left right : IdKey) : left.lt right = true ↔ left.triple < right.triple := by
  cases left <;> cases right <;>
    simp [lt, le, triple, Prod.Lex.toLex_lt_toLex]

theorem le_iff (left right : IdKey) : left.le right = true ↔ left.triple ≤ right.triple := by
  have reversed := lt_iff right left
  rw [lt, Bool.not_eq_true', ← Bool.not_eq_true] at reversed
  rw [← not_lt, ← reversed, not_not]

theorem le_trans (left middle right : IdKey) (first : left.le middle = true)
    (second : middle.le right = true) : left.le right = true := by
  rw [le_iff] at first second ⊢
  exact first.trans second

theorem le_total (left right : IdKey) : (left.le right || right.le left) = true := by
  rw [Bool.or_eq_true, le_iff, le_iff]
  exact LinearOrder.le_total left.triple right.triple

theorem le_antisymm {left right : IdKey} (forth : left.le right = true)
    (back : right.le left = true) : left = right := by
  rw [le_iff] at forth back
  have same : left.triple = right.triple := forth.antisymm back
  cases left <;> cases right <;> simp_all [triple]

end IdKey

namespace ItemId

/-- The key of the first identifier is before that of the second. -/
def Precedes (left right : ItemId) : Prop :=
  ∃ leftKey rightKey, key left = .ok leftKey ∧ key right = .ok rightKey ∧
    leftKey.lt rightKey = true

theorem Precedes.irrefl (id : ItemId) : ¬ Precedes id id := by
  rintro ⟨left, right, leftOk, rightOk, before⟩
  cases leftOk.symm.trans rightOk
  exact lt_irrefl _ ((IdKey.lt_iff left left).mp before)

/-- The key of the first identifier is not after that of the second. -/
def NotAfter (left right : ItemId) : Prop :=
  ∃ leftKey rightKey, key left = .ok leftKey ∧ key right = .ok rightKey ∧
    leftKey.le rightKey = true

theorem NotAfter.not_precedes {left right : ItemId} (notAfter : NotAfter left right) :
    ¬ Precedes right left := by
  obtain ⟨leftKey, rightKey, leftOk, rightOk, lower⟩ := notAfter
  rintro ⟨_, _, sameRight, sameLeft, before⟩
  cases leftOk.symm.trans sameLeft
  cases rightOk.symm.trans sameRight
  rw [IdKey.lt, lower] at before
  cases before

theorem sort_notAfter {ids sorted : List ItemId} (success : sort ids = .ok sorted) :
    sorted.Pairwise NotAfter := by
  obtain ⟨keyed, related, rfl⟩ := sort_eq_ok success
  have keys : ∀ pair ∈ keyed.mergeSort fun left right => left.1.le right.1,
      key pair.2 = .ok pair.1 := by
    intro pair member
    exact forall_mem_keyed related pair ((List.mergeSort_perm _ _).mem_iff.mp member)
  have ordered := List.pairwise_mergeSort (fun left middle right : IdKey × ItemId =>
    IdKey.le_trans left.1 middle.1 right.1) (fun left right => IdKey.le_total left.1 right.1) keyed
  rw [List.pairwise_map]
  refine ordered.imp_of_mem ?_
  intro left right leftMember rightMember lower
  exact ⟨left.1, right.1, keys left leftMember, keys right rightMember, lower⟩

/-- In the sorted list no identifier stands behind one that it precedes. -/
theorem sort_pairwise {ids sorted : List ItemId} (success : sort ids = .ok sorted) :
    sorted.Pairwise fun left right => ¬ Precedes right left := by
  apply (sort_notAfter success).imp
  intro left right notAfter
  exact notAfter.not_precedes

/-- No two identifiers of a list have the same key. -/
def DistinctKeys (ids : List ItemId) : Prop :=
  ∀ left ∈ ids, ∀ right ∈ ids, ∀ value, key left = .ok value → key right = .ok value →
    left = right

/-- Where no two identifiers have the same key, the sorted list does not depend on the
sequence in which the identifiers are given. -/
theorem sort_eq_of_perm {ids others sorted : List ItemId} (permuted : ids.Perm others)
    (distinct : DistinctKeys ids) (success : sort ids = .ok sorted) :
    sort others = .ok sorted := by
  have keys : ∀ id ∈ others, HasKey id := fun id member =>
    hasKey_of_sort_eq_ok success (permuted.mem_iff.mpr member)
  obtain ⟨found, foundOk⟩ := exists_sort_eq_ok keys
  have same : sorted = found := by
    have rearranged : sorted.Perm found :=
      (sort_perm success).trans (permuted.trans (sort_perm foundOk).symm)
    refine rearranged.eq_of_pairwise ?_ (sort_pairwise success) (sort_pairwise foundOk)
    intro left right leftMember rightMember notAfter notBefore
    have leftInside := (sort_perm success).mem_iff.mp leftMember
    have rightInside := (sort_perm success).mem_iff.mp (rearranged.mem_iff.mpr rightMember)
    obtain ⟨leftKey, leftOk⟩ := hasKey_of_sort_eq_ok success leftInside
    obtain ⟨rightKey, rightOk⟩ := hasKey_of_sort_eq_ok success rightInside
    have forth : leftKey.le rightKey = true := by
      by_contra after
      exact notAfter ⟨rightKey, leftKey, rightOk, leftOk, by simpa [IdKey.lt] using after⟩
    have back : rightKey.le leftKey = true := by
      by_contra after
      exact notBefore ⟨leftKey, rightKey, leftOk, rightOk, by simpa [IdKey.lt] using after⟩
    rw [IdKey.le_antisymm forth back] at leftOk
    exact distinct left leftInside right rightInside rightKey leftOk rightOk
  rw [same]
  exact foundOk

end ItemId

end ApiCensus
