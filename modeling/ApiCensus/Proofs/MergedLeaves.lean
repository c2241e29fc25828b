import ApiCensus.Proofs.MergedSettings
import ApiCensus.Proofs.RecordKeys
import Mathlib.Data.List.Sort

/-!
# Merging at every depth

A path of keys leads through nested records to a part of a value.  What a merge leaves at a path
is settled key by key: under each key of the update two records are merged in turn, two lists
under an additive key are united, and anything else is replaced.  `Laid` says so once, and the
laws of merging follow by induction on paths.

Laying the same update over its own result changes nothing, as long as every additive list of the
update meets a list: one that meets none is copied as it stands, and only sorted when it is laid
over its copy.
-/

namespace ApiCensus

namespace Value

/-- The part of a value that a path of keys leads to. -/
def part? : List Scalar → Value → Option Value
  | [], value => some value
  | key :: path, .record entries => (find? key entries).bind (part? path)
  | _ :: _, _ => none

/-- In every record that a path leads to, each key occurs once and is the same as itself. -/
inductive Keyed : Value → Prop
  | scalar (content : Scalar) : Keyed (.scalar content)
  | list (elements : List Value) : Keyed (.list elements)
  | record {entries : List (Scalar × Value)} :
      (entries.Pairwise fun entry later => ¬ entry.1.same later.1 = true) →
      (∀ entry ∈ entries, entry.1.same entry.1 = true) →
      (∀ entry ∈ entries, Keyed entry.2) → Keyed (.record entries)

theorem part?_record (key : Scalar) (path : List Scalar) (entries : List (Scalar × Value)) :
    (Value.record entries).part? (key :: path) = (find? key entries).bind (part? path) :=
  rfl

theorem exists_of_part?_cons {value part : Value} {key : Scalar} {path : List Scalar}
    (found : value.part? (key :: path) = some part) :
    ∃ entries inner, value = .record entries ∧ find? key entries = some inner ∧
      inner.part? path = some part := by
  cases value with
  | record entries =>
      obtain ⟨inner, innerFound, partFound⟩ := Option.bind_eq_some_iff.mp found
      exact ⟨entries, inner, rfl, innerFound, partFound⟩
  | scalar content => cases found
  | list elements => cases found

theorem find?_of_mem {entries : List (Scalar × Value)}
    (distinct : entries.Pairwise fun entry later => ¬ entry.1.same later.1 = true)
    (reflexive : ∀ entry ∈ entries, entry.1.same entry.1 = true) {key : Scalar} {part : Value}
    (member : (key, part) ∈ entries) : find? key entries = some part := by
  induction entries with
  | nil => cases member
  | cons first entries induction =>
      obtain ⟨present, old⟩ := first
      obtain ⟨others, distinct⟩ := List.pairwise_cons.mp distinct
      obtain ⟨here, reflexive⟩ := List.forall_mem_cons.mp reflexive
      rcases List.mem_cons.mp member with same | later
      · cases same
        exact find?_cons_of_same here part entries
      · rw [find?_cons_of_other (others _ later)]
        exact induction distinct reflexive later

theorem exists_mem_of_find? {entries : List (Scalar × Value)} {key : Scalar} {part : Value}
    (found : find? key entries = some part) :
    ∃ present, (present, part) ∈ entries ∧ present.same key = true := by
  obtain ⟨entry, entryFound, rfl⟩ := Option.map_eq_some_iff.mp found
  have same := List.find?_some entryFound
  exact ⟨entry.1, List.mem_of_find?_eq_some entryFound, same⟩

end Value

namespace Config

open Value

variable {key : Scalar} {present : Option Value} {base update result part : Value}
  {below above merged : List (Scalar × Value)} {path : List Scalar}

/-- The last key of a path is additive. -/
def endsAdditive (path : List Scalar) : Bool :=
  path.getLast?.any isAdditive

theorem endsAdditive_cons_cons (outer key : Scalar) (path : List Scalar) :
    endsAdditive (outer :: key :: path) = endsAdditive (key :: path) := by
  simp [endsAdditive]

theorem endsAdditive_singleton (key : Scalar) : endsAdditive [key] = isAdditive key := by
  simp [endsAdditive]

theorem isAdditive_congr {other : Scalar} (same : key.same other = true) :
    isAdditive key = isAdditive other := by
  cases other with
  | text name => rw [Scalar.same_text_iff.mp same]
  | _ =>
      cases key with
      | text name => cases Scalar.text_same_iff.mp same
      | _ => rfl

/-! ### What stands under a key -/

/-- What a merge leaves under a key, where something is present or not and the update has a
part. -/
inductive Laid (key : Scalar) : Option Value → Value → Value → Prop
  | merged {below above merged : List (Scalar × Value)} : mergeEntries below above = .ok merged →
      Laid key (some (.record below)) (.record above) (.record merged)
  | united {left right both : List Value} : isAdditive key = true → union left right = .ok both →
      Laid key (some (.list left)) (.list right) (.list both)
  | replaced {present : Option Value} {update : Value} :
      (∀ below above, present = some (.record below) → update ≠ .record above) →
      (∀ left right, isAdditive key = true → present = some (.list left) → update ≠ .list right) →
      Laid key present update update

theorem laid_of_mergeValue (success : mergeValue key present update = .ok result) :
    Laid key present update result := by
  unfold mergeValue at success
  cases update with
  | scalar content =>
      cases success
      apply Laid.replaced <;> simp
  | list right =>
      dsimp only at success
      split at success
      · split at success
        · rename_i left additive
          rw [map_eq_pure_bind] at success
          obtain ⟨both, bothOk, same⟩ := Outcome.bind_eq_ok_iff.mp success
          cases same
          exact .united additive bothOk
        · rename_i plain
          cases success
          apply Laid.replaced
          · simp
          · intro _ _ additive
            exact absurd additive plain
      · rename_i noList
        cases success
        apply Laid.replaced
        · simp
        · intro left _ _ isList
          exact absurd isList (noList left)
  | record above =>
      dsimp only at success
      split at success
      · rw [map_eq_pure_bind] at success
        obtain ⟨merged, mergedOk, same⟩ := Outcome.bind_eq_ok_iff.mp success
        cases same
        exact .merged mergedOk
      · rename_i noRecord
        cases success
        apply Laid.replaced
        · intro below _ isRecord
          exact absurd isRecord (noRecord below)
        · simp

theorem Laid.mergeValue_eq (laid : Laid key present update result) :
    mergeValue key present update = .ok result := by
  unfold mergeValue
  cases laid with
  | merged mergedOk =>
      simp only [mergedOk]
      rfl
  | united additive bothOk =>
      simp only [additive, if_true, bothOk]
      rfl
  | replaced noRecords noLists =>
      cases update with
      | scalar content => rfl
      | list right =>
          dsimp only
          split
          · rename_i left
            rw [if_neg fun additive => noLists left right additive rfl rfl]
          · rfl
      | record above =>
          dsimp only
          split
          · rename_i below
            exact absurd rfl (noRecords below above rfl)
          · rfl

theorem Laid.congr {other : Scalar} (same : key.same other = true)
    (laid : Laid key present update result) : Laid other present update result := by
  have additive := isAdditive_congr same
  cases laid with
  | merged mergedOk => exact .merged mergedOk
  | united isAdditive bothOk => exact .united (additive ▸ isAdditive) bothOk
  | replaced noRecords noLists => exact .replaced noRecords (additive ▸ noLists)

/-- Under a key that the update does not have nothing changes, and under any other key the part of
the update is laid over what the base has there. -/
theorem find?_merged_of_distinct (success : mergeEntries below above = .ok merged)
    (distinct : above.Pairwise fun entry later => ¬ entry.1.same later.1 = true) (key : Scalar) :
    find? key above = none ∧ find? key merged = find? key below ∨
      ∃ part result, find? key above = some part ∧ find? key merged = some result ∧
        Laid key (find? key below) part result := by
  induction above generalizing below with
  | nil =>
      rw [mergeEntries] at success
      cases success
      exact .inl ⟨rfl, rfl⟩
  | cons entry above induction =>
      obtain ⟨present, part⟩ := entry
      obtain ⟨others, distinct⟩ := List.pairwise_cons.mp distinct
      rw [mergeEntries] at success
      obtain ⟨result, resultOk, success⟩ := Outcome.bind_eq_ok_iff.mp success
      have laid := laid_of_mergeValue resultOk
      by_cases same : present.same key = true
      · have absent : find? key above = none := by
          cases found : find? key above with
          | none => rfl
          | some later =>
              obtain ⟨other, member, otherSame⟩ := exists_mem_of_find? found
              have again := others _ member
              rw [Scalar.same_congr otherSame] at again
              exact absurd same again
        rcases induction success distinct with ⟨_, unchanged⟩ | ⟨_, _, found, _⟩
        · right
          refine ⟨part, result, find?_cons_of_same same part above, ?_, ?_⟩
          · rw [unchanged, find?_put_of_same same]
          · rw [← find?_congr same]
            exact laid.congr same
        · rw [absent] at found
          cases found
      · have later := induction success distinct
        rw [find?_put_of_other same] at later
        rw [find?_cons_of_other same]
        exact later

theorem find?_merged (keyed : (Value.record above).Keyed)
    (success : mergeEntries below above = .ok merged) (key : Scalar) :
    find? key above = none ∧ find? key merged = find? key below ∨
      ∃ part result, find? key above = some part ∧ part.Keyed ∧
        find? key merged = some result ∧ Laid key (find? key below) part result := by
  cases keyed with
  | record distinct _ parts =>
      rcases find?_merged_of_distinct success distinct key with absent | ⟨part, result, found, laid⟩
      · exact .inl absent
      · obtain ⟨_, member, _⟩ := exists_mem_of_find? found
        exact .inr ⟨part, result, found, parts _ member, laid⟩

/-! ### Leaves -/

/-- A leaf of the update ends up where it is, unless its key is additive. -/
theorem Laid.taken (laid : Laid key present update result) (keyed : update.Keyed)
    (found : update.part? path = some part) (isLeaf : part.isRecord = false)
    (plain : endsAdditive (key :: path) = false) : result.part? path = some part := by
  induction path generalizing key present update result with
  | nil =>
      cases found
      cases laid with
      | merged => cases isLeaf
      | united additive =>
          rw [endsAdditive_singleton, additive] at plain
          cases plain
      | replaced => rfl
  | cons inner path induction =>
      cases laid with
      | merged mergedOk =>
          rw [part?_record] at found ⊢
          rw [endsAdditive_cons_cons] at plain
          rcases find?_merged keyed mergedOk inner with
            ⟨absent, _⟩ | ⟨_, result, has, partKeyed, resultFound, partLaid⟩
          · rw [absent] at found
            cases found
          · rw [has] at found
            rw [resultFound]
            exact induction partLaid partKeyed found plain
      | united => cases found
      | replaced => exact found

/-- A leaf of the base stays where it is if the update has neither a leaf on the way to it nor
anything in its place. -/
theorem Laid.kept (laid : Laid key (some base) update result) (keyed : update.Keyed)
    (found : base.part? path = some part)
    (apart : ∀ other leaf, update.part? other = some leaf → leaf.isRecord = false →
      ¬ other <+: path)
    (unmapped : ∀ mapping, update.part? path = some mapping → mapping.isRecord = false) :
    result.part? path = some part := by
  induction path generalizing key base update result with
  | nil => exact absurd List.nil_prefix (apart [] update rfl (unmapped update rfl))
  | cons inner path induction =>
      obtain ⟨below, present, rfl, presentFound, partFound⟩ := exists_of_part?_cons found
      cases laid with
      | @merged _ above merged mergedOk =>
          rw [part?_record]
          rcases find?_merged keyed mergedOk inner with
            ⟨_, unchanged⟩ | ⟨_, result, has, partKeyed, resultFound, partLaid⟩
          · rw [unchanged]
            exact found
          · rw [presentFound] at partLaid
            rw [resultFound]
            apply induction partLaid partKeyed partFound
            · intro other leaf leafFound isLeaf within
              apply apart (inner :: other) leaf _ isLeaf
              · exact List.cons_prefix_cons.mpr ⟨rfl, within⟩
              · rw [part?_record, has]
                exact leafFound
            · intro mapping mappingFound
              apply unmapped mapping
              rw [part?_record, has]
              exact mappingFound
      | replaced noRecords =>
          cases update with
          | record above => exact absurd rfl (noRecords below above rfl)
          | scalar content => exact absurd List.nil_prefix (apart [] _ rfl rfl)
          | list elements => exact absurd List.nil_prefix (apart [] _ rfl rfl)

theorem Laid.united_at (laid : Laid key (some base) update result) (keyed : update.Keyed)
    (additive : endsAdditive (key :: path) = true) {left right : List Value}
    (leftFound : base.part? path = some (.list left))
    (rightFound : update.part? path = some (.list right)) :
    ∃ both, union left right = .ok both ∧ result.part? path = some (.list both) := by
  induction path generalizing key base update result with
  | nil =>
      cases leftFound
      cases rightFound
      rw [endsAdditive_singleton] at additive
      cases laid with
      | united _ bothOk => exact ⟨_, bothOk, rfl⟩
      | replaced _ noLists => exact absurd rfl (noLists left right additive rfl)
  | cons inner path induction =>
      obtain ⟨below, _, rfl, presentFound, leftFound⟩ := exists_of_part?_cons leftFound
      obtain ⟨above, _, rfl, partFound, rightFound⟩ := exists_of_part?_cons rightFound
      rw [endsAdditive_cons_cons] at additive
      cases laid with
      | merged mergedOk =>
          rw [part?_record]
          rcases find?_merged keyed mergedOk inner with
            ⟨absent, _⟩ | ⟨_, result, has, partKeyed, resultFound, partLaid⟩
          · rw [absent] at partFound
            cases partFound
          · cases partFound.symm.trans has
            rw [presentFound] at partLaid
            rw [resultFound]
            exact induction partLaid partKeyed additive leftFound rightFound
      | replaced noRecords => exact absurd rfl (noRecords below above rfl)

/-- No path leads into the result that leads neither into what was present nor into the update. -/
theorem Laid.covered (laid : Laid key present update result) (keyed : update.Keyed)
    (found : result.part? path = some part) :
    (present.bind (part? path)).isSome = true ∨ (update.part? path).isSome = true := by
  induction path generalizing key present update result with
  | nil => exact .inr rfl
  | cons inner path induction =>
      cases laid with
      | merged mergedOk =>
          rw [part?_record] at found
          rw [Option.bind_some, part?_record, part?_record]
          rcases find?_merged keyed mergedOk inner with
            ⟨_, unchanged⟩ | ⟨_, result, has, partKeyed, resultFound, partLaid⟩
          · rw [unchanged] at found
            rw [found]
            exact .inl rfl
          · rw [resultFound] at found
            rw [has]
            exact induction partLaid partKeyed found
      | united => cases found
      | replaced =>
          right
          rw [found]
          rfl

/-! ### Merging twice -/

theorem mergeEntries_of_unchanged
    (unchanged : ∀ entry ∈ above, ∃ present, find? entry.1 below = some present ∧
      mergeValue entry.1 (some present) entry.2 = .ok present) :
    mergeEntries below above = .ok below := by
  induction above with
  | nil => rw [mergeEntries]
  | cons entry above induction =>
      obtain ⟨⟨present, found, presentOk⟩, later⟩ := List.forall_mem_cons.mp unchanged
      rw [mergeEntries, found, presentOk]
      simp only [bind, Except.bind]
      rw [put_of_find? found]
      exact induction later

/-- A value without additive lists does not change when it is laid over itself. -/
theorem mergeValue_self (keyed : update.Keyed)
    (plain : ∀ path elements, update.part? path = some (.list elements) →
      endsAdditive (key :: path) = false) :
    mergeValue key (some update) update = .ok update := by
  induction keyed generalizing key with
  | scalar content => rw [mergeValue]
  | list elements =>
      have single := plain [] elements rfl
      rw [endsAdditive_singleton] at single
      simp [mergeValue, single]
  | @record entries distinct reflexive _ induction =>
      apply Laid.mergeValue_eq
      apply Laid.merged
      apply mergeEntries_of_unchanged
      intro entry member
      have found := find?_of_mem distinct reflexive member
      refine ⟨entry.2, found, induction entry member ?_⟩
      intro path elements listed
      rw [← endsAdditive_cons_cons key]
      apply plain (entry.1 :: path) elements
      rw [part?_record, found]
      exact listed

/-- The lists under additive keys hold texts. -/
def HoldsTexts (key : Scalar) (present : Option Value) : Prop :=
  ∀ path elements, endsAdditive (key :: path) = true →
    present.bind (part? path) = some (.list elements) →
    ∃ texts : List String, elements = texts.map .text

/-- Every list of the update under an additive key meets a list. -/
def MeetsLists (key : Scalar) (present : Option Value) (update : Value) : Prop :=
  ∀ path right, endsAdditive (key :: path) = true → update.part? path = some (.list right) →
    ∃ left, present.bind (part? path) = some (.list left)

theorem HoldsTexts.inside {entries : List (Scalar × Value)}
    (holds : HoldsTexts key (some (.record entries))) (inner : Scalar) :
    HoldsTexts inner (find? inner entries) := by
  intro path elements additive found
  apply holds (inner :: path) elements
  · rw [endsAdditive_cons_cons]
    exact additive
  · exact found

theorem MeetsLists.inside {inner : Scalar}
    (meets : MeetsLists key (some (.record below)) (.record above))
    (found : find? inner above = some part) : MeetsLists inner (find? inner below) part := by
  intro path right additive listed
  apply meets (inner :: path) right
  · rw [endsAdditive_cons_cons]
    exact additive
  · rw [part?_record, found]
    exact listed

theorem union_again {left right both : List Value}
    (leftTexts : ∃ texts : List String, left = texts.map .text)
    (rightTexts : ∃ texts : List String, right = texts.map .text)
    (success : union left right = .ok both) : union both right = .ok both := by
  obtain ⟨left, rfl⟩ := leftTexts
  obtain ⟨right, rfl⟩ := rightTexts
  obtain ⟨once, onceOk, onceOrdered, onceMembers⟩ := exists_union_texts left right
  cases success.symm.trans onceOk
  obtain ⟨twice, twiceOk, twiceOrdered, twiceMembers⟩ := exists_union_texts once right
  have same : twice = once := by
    apply twiceOrdered.eq_of_mem_iff onceOrdered
    intro text
    rw [twiceMembers, onceMembers, or_assoc, or_self]
  rw [twiceOk, same]

theorem replaced_again (keyed : update.Keyed)
    (noRecords : ∀ below above, present = some (.record below) → update ≠ .record above)
    (noLists : ∀ left right, isAdditive key = true → present = some (.list left) →
      update ≠ .list right)
    (meets : MeetsLists key present update) : mergeValue key (some update) update = .ok update := by
  apply mergeValue_self keyed
  intro path right listed
  -- An additive list inside of the update would have met a list, and was not just copied.
  cases additive : endsAdditive (key :: path) with
  | false => rfl
  | true =>
      obtain ⟨left, found⟩ := meets path right additive listed
      obtain ⟨value, isPresent, found⟩ := Option.bind_eq_some_iff.mp found
      cases path with
      | nil =>
          cases found
          cases listed
          rw [endsAdditive_singleton] at additive
          exact absurd rfl (noLists left right additive isPresent)
      | cons inner path =>
          obtain ⟨below, _, rfl, _⟩ := exists_of_part?_cons found
          obtain ⟨above, _, rfl, _⟩ := exists_of_part?_cons listed
          exact absurd rfl (noRecords below above isPresent)

/-- Laying an update over its own result changes nothing.  The induction is on the update: what
stands under one of its keys was laid there by the part that is laid there again. -/
theorem Laid.again (laid : Laid key present update result) (keyed : update.Keyed)
    (meets : MeetsLists key present update) (presentTexts : HoldsTexts key present)
    (updateTexts : HoldsTexts key (some update)) :
    mergeValue key (some result) update = .ok result := by
  induction keyed generalizing key present result with
  | scalar content =>
      cases laid with
      | replaced noRecords noLists =>
          exact replaced_again (.scalar content) noRecords noLists meets
  | list elements =>
      cases laid with
      | @united left _ both additive bothOk =>
          rw [← endsAdditive_singleton] at additive
          apply Laid.mergeValue_eq
          apply Laid.united
          · rw [← endsAdditive_singleton]
            exact additive
          · exact union_again (presentTexts [] left additive rfl)
              (updateTexts [] elements additive rfl) bothOk
      | replaced noRecords noLists =>
          exact replaced_again (.list elements) noRecords noLists meets
  | @record above distinct reflexive parts induction =>
      have keyed : (Value.record above).Keyed := .record distinct reflexive parts
      cases laid with
      | @merged below _ merged mergedOk =>
          apply Laid.mergeValue_eq
          apply Laid.merged
          apply mergeEntries_of_unchanged
          intro entry member
          have found := find?_of_mem distinct reflexive member
          rcases find?_merged keyed mergedOk entry.1 with
            ⟨absent, _⟩ | ⟨part, result, has, _, resultFound, partLaid⟩
          · rw [absent] at found
            cases found
          · cases found.symm.trans has
            refine ⟨result, resultFound, ?_⟩
            apply induction entry member partLaid (meets.inside found)
              (presentTexts.inside entry.1)
            rw [← found]
            exact updateTexts.inside entry.1
      | replaced noRecords noLists => exact replaced_again keyed noRecords noLists meets

/-! ### Merging at all -/

theorem exists_mergeEntries
    (distinct : above.Pairwise fun entry later => ¬ entry.1.same later.1 = true)
    (each : ∀ entry ∈ above, ∃ result,
      mergeValue entry.1 (find? entry.1 below) entry.2 = .ok result) :
    ∃ merged, mergeEntries below above = .ok merged := by
  induction above generalizing below with
  | nil => exact ⟨below, by rw [mergeEntries]⟩
  | cons entry above induction =>
      obtain ⟨others, distinct⟩ := List.pairwise_cons.mp distinct
      obtain ⟨⟨result, resultOk⟩, later⟩ := List.forall_mem_cons.mp each
      have rest : ∀ other ∈ above, ∃ next, mergeValue other.1
          (find? other.1 (put entry.1 result below)) other.2 = .ok next := by
        intro other member
        rw [find?_put_of_other (others other member)]
        exact later other member
      obtain ⟨merged, mergedOk⟩ := induction distinct rest
      refine ⟨merged, ?_⟩
      rw [mergeEntries, resultOk]
      exact mergedOk

theorem exists_mergeValue (keyed : update.Keyed) (presentTexts : HoldsTexts key present)
    (updateTexts : HoldsTexts key (some update)) :
    ∃ result, mergeValue key present update = .ok result := by
  induction keyed generalizing key present with
  | scalar content => exact ⟨_, by rw [mergeValue]⟩
  | list elements =>
      by_cases both : isAdditive key = true ∧ ∃ left, present = some (.list left)
      · obtain ⟨additive, left, rfl⟩ := both
        rw [← endsAdditive_singleton] at additive
        obtain ⟨leftTexts, rfl⟩ := presentTexts [] left additive rfl
        obtain ⟨rightTexts, rfl⟩ := updateTexts [] elements additive rfl
        obtain ⟨texts, unionOk, _⟩ := exists_union_texts leftTexts rightTexts
        rw [endsAdditive_singleton] at additive
        exact ⟨_, (Laid.united additive unionOk).mergeValue_eq⟩
      · refine ⟨_, (Laid.replaced ?_ ?_).mergeValue_eq⟩
        · simp
        · intro left _ additive isList
          exact absurd ⟨additive, left, isList⟩ both
  | @record above distinct reflexive _ induction =>
      by_cases both : ∃ below, present = some (.record below)
      · obtain ⟨below, rfl⟩ := both
        have each : ∀ entry ∈ above, ∃ result,
            mergeValue entry.1 (find? entry.1 below) entry.2 = .ok result := by
          intro entry member
          apply induction entry member (presentTexts.inside entry.1)
          rw [← find?_of_mem distinct reflexive member]
          exact updateTexts.inside entry.1
        obtain ⟨merged, mergedOk⟩ := exists_mergeEntries distinct each
        exact ⟨_, (Laid.merged mergedOk).mergeValue_eq⟩
      · refine ⟨_, (Laid.replaced ?_ ?_).mergeValue_eq⟩
        · intro below _ isRecord
          exact absurd ⟨below, isRecord⟩ both
        · simp

/-! ### The laws of merging -/

/-- In every record that a path leads to, the lists under additive keys hold texts. -/
inductive AddsTexts : Value → Prop
  | scalar (content : Scalar) : AddsTexts (.scalar content)
  | list (elements : List Value) : AddsTexts (.list elements)
  | record {entries : List (Scalar × Value)} :
      (∀ entry ∈ entries, isAdditive entry.1 = true → ∀ elements, entry.2 = .list elements →
        ∃ texts : List String, elements = texts.map .text) →
      (∀ entry ∈ entries, AddsTexts entry.2) → AddsTexts (.record entries)

theorem AddsTexts.holdsTexts {value : Value} (adds : AddsTexts value)
    (outer : isAdditive key = true → ∀ elements, value = .list elements →
      ∃ texts : List String, elements = texts.map .text) : HoldsTexts key (some value) := by
  intro path elements additive found
  rw [Option.bind_some] at found
  induction path generalizing key value with
  | nil =>
      rw [endsAdditive_singleton] at additive
      exact outer additive elements (Option.some.inj found)
  | cons inner path induction =>
      obtain ⟨entries, part, rfl, partFound, found⟩ := exists_of_part?_cons found
      obtain ⟨present, member, same⟩ := exists_mem_of_find? partFound
      rw [endsAdditive_cons_cons] at additive
      cases adds with
      | record lists parts =>
          apply induction (parts _ member) _ additive found
          rw [← isAdditive_congr same]
          exact lists _ member

/-- What a merge leaves at the paths of two records. -/
structure Overlaid (base update merged : Value) : Prop where
  /-- A leaf of the update appears in its place, unless its key is additive. -/
  taken : ∀ path part, update.part? path = some part → part.isRecord = false →
    endsAdditive path = false → merged.part? path = some part
  /-- A leaf of the base stays in its place if no leaf of the update lies on its path or beyond,
  and no record of the update in its place. -/
  kept : ∀ path part, base.part? path = some part → part.isRecord = false →
    (∀ other leaf, update.part? other = some leaf → leaf.isRecord = false →
      ¬ path <+: other ∧ ¬ other <+: path) →
    (∀ entries, update.part? path ≠ some (.record entries)) → merged.part? path = some part
  /-- Two lists under an additive key become their union, in strict order. -/
  united : ∀ path left right, endsAdditive path = true → base.part? path = some (.list left) →
    update.part? path = some (.list right) →
    ∃ texts : List String, merged.part? path = some (.list (texts.map .text)) ∧
      texts.Pairwise (· < ·) ∧ ∀ text, text ∈ texts ↔ .text text ∈ left ∨ .text text ∈ right
  /-- Every path leads into the base or into the update. -/
  covered : ∀ path, (merged.part? path).isSome = true →
    (base.part? path).isSome = true ∨ (update.part? path).isSome = true

theorem endsAdditive_null (path : List Scalar) :
    endsAdditive (.null :: path) = endsAdditive path := by
  cases path with
  | nil => rfl
  | cons key path => exact endsAdditive_cons_cons .null key path

theorem Laid.overlaid (laid : Laid .null (some base) update result) (keyed : update.Keyed)
    (baseTexts : HoldsTexts .null (some base)) (updateTexts : HoldsTexts .null (some update)) :
    Overlaid base update result where
  taken path part found isLeaf plain := by
    rw [← endsAdditive_null] at plain
    exact laid.taken keyed found isLeaf plain
  kept path part found _ apart unmapped := by
    apply laid.kept keyed found
    · intro other leaf leafFound isLeaf
      exact (apart other leaf leafFound isLeaf).2
    · intro mapping mappingFound
      cases mapping with
      | record entries => exact absurd mappingFound (unmapped entries)
      | scalar content => rfl
      | list elements => rfl
  united path left right additive leftFound rightFound := by
    rw [← endsAdditive_null] at additive
    obtain ⟨both, bothOk, found⟩ := laid.united_at keyed additive leftFound rightFound
    obtain ⟨leftTexts, rfl⟩ := baseTexts path left additive leftFound
    obtain ⟨rightTexts, rfl⟩ := updateTexts path right additive rightFound
    obtain ⟨texts, unionOk, ordered, members⟩ := exists_union_texts leftTexts rightTexts
    cases bothOk.symm.trans unionOk
    refine ⟨texts, found, ordered, ?_⟩
    intro text
    rw [members]
    simp
  covered path found := by
    obtain ⟨part, found⟩ := Option.isSome_iff_exists.mp found
    exact laid.covered keyed found

theorem merge_records (below above : List (Scalar × Value)) :
    merge (.record below) (.record above) =
      mergeValue .null (some (.record below)) (.record above) := by
  rw [merge, mergeValue]

/-- Records are merged whatever they hold, as long as the lists under additive keys hold texts.
The leaves of the update take their places, the leaves of the base that are not touched keep
theirs, additive lists are united, and nothing else appears.  If every additive list of the update
meets a list of the base, laying the update over the result changes nothing. -/
theorem merge_leaf_law {below above : List (Scalar × Value)} (keyed : (Value.record above).Keyed)
    (belowTexts : AddsTexts (.record below)) (aboveTexts : AddsTexts (.record above)) :
    ∃ merged, merge (.record below) (.record above) = .ok merged ∧
      Overlaid (.record below) (.record above) merged ∧
      ((∀ path right, endsAdditive path = true →
          (Value.record above).part? path = some (.list right) →
          ∃ left, (Value.record below).part? path = some (.list left)) →
        merge merged (.record above) = .ok merged) := by
  have baseTexts : HoldsTexts .null (some (.record below)) := by
    apply belowTexts.holdsTexts
    simp
  have updateTexts : HoldsTexts .null (some (.record above)) := by
    apply aboveTexts.holdsTexts
    simp
  obtain ⟨result, resultOk⟩ := exists_mergeValue keyed baseTexts updateTexts
  have laid := laid_of_mergeValue resultOk
  refine ⟨result, ?_, laid.overlaid keyed baseTexts updateTexts, ?_⟩
  · rw [merge_records]
    exact resultOk
  · intro listed
    have meets : MeetsLists .null (some (.record below)) (.record above) := by
      intro path right additive found
      rw [endsAdditive_null] at additive
      exact listed path right additive found
    have again := laid.again keyed meets baseTexts updateTexts
    cases laid with
    | merged =>
        rw [merge_records]
        exact again
    | replaced noRecords => exact absurd rfl (noRecords below above rfl)

/-! ### An update of nested settings -/

/-- Settings with a list of paths and a record of scalars. -/
def nested (paths : List String) (output : List (String × Scalar)) : List (Scalar × Value) :=
  [(.text "exclude_paths", .list (paths.map .text)),
    (.text "output", .ofFields (output.map fun field => (field.1, .scalar field.2)))]

theorem part?_nested {paths : List String} {output : List (String × Scalar)} {right : List Value}
    (found : (Value.record (nested paths output)).part? path = some (.list right)) :
    ∃ key, path = [key] ∧ (Scalar.text "exclude_paths").same key = true := by
  cases path with
  | nil => cases found
  | cons key path =>
      obtain ⟨_, part, isRecord, partFound, found⟩ := exists_of_part?_cons found
      cases isRecord
      obtain ⟨present, member, same⟩ := exists_mem_of_find? partFound
      rcases List.mem_cons.mp member with first | later
      · cases first
        cases path with
        | nil => exact ⟨key, rfl, same⟩
        | cons inner path => cases found
      · cases List.mem_singleton.mp later
        cases path with
        | nil => cases found
        | cons inner path =>
            obtain ⟨_, _, isRecord, partFound, found⟩ := exists_of_part?_cons found
            cases isRecord
            obtain ⟨_, member, _⟩ := exists_mem_of_find? partFound
            simp only [List.map_map, List.mem_map] at member
            obtain ⟨field, _, same⟩ := member
            cases same
            cases path <;> cases found

theorem addsTexts_nested (paths : List String) (output : List (String × Scalar)) :
    AddsTexts (.record (nested paths output)) := by
  have inner : AddsTexts (.ofFields (output.map fun field => (field.1, .scalar field.2))) := by
    apply AddsTexts.record <;> simp only [List.map_map, List.mem_map]
    · rintro _ ⟨field, _, rfl⟩ _ _ ⟨⟩
    · rintro _ ⟨field, _, rfl⟩
      exact .scalar field.2
  apply AddsTexts.record
  · intro entry member _ elements isList
    rcases List.mem_cons.mp member with rfl | later
    · cases isList
      exact ⟨paths, rfl⟩
    · cases List.mem_singleton.mp later
      cases isList
  · exact List.forall_mem_cons.mpr ⟨.list _, List.forall_mem_singleton.mpr inner⟩

/-- The number in the update replaces the one below it, the format stays, the lists are united,
and the update changes nothing more when it is laid over the result. -/
theorem nested_leaf_law : ∃ merged,
    merge (.record (nested ["b"] [("table_format", .text "simple"), ("ratio_precision", .int 4)]))
      (.record (nested ["c", "a"] [("ratio_precision", .int 2)])) = .ok merged ∧
    merged.part? [.text "output", .text "ratio_precision"] = some (.int 2) ∧
    merged.part? [.text "output", .text "table_format"] = some (.text "simple") ∧
    (∃ texts : List String, merged.part? [.text "exclude_paths"] =
        some (.list (texts.map .text)) ∧ texts.Pairwise (· < ·) ∧
      ∀ text, text ∈ texts ↔ .text text ∈ [Value.text "b"] ∨
        .text text ∈ [Value.text "c", .text "a"]) ∧
    merge merged (.record (nested ["c", "a"] [("ratio_precision", .int 2)])) = .ok merged := by
  have keyed : (Value.record (nested ["c", "a"] [("ratio_precision", .int 2)])).Keyed := by
    have inner : (Value.ofFields [("ratio_precision", .int 2)]).Keyed :=
      .record (by decide) (by decide) (List.forall_mem_singleton.mpr (.scalar _))
    apply Keyed.record
    · decide
    · decide
    · exact List.forall_mem_cons.mpr ⟨.list _, List.forall_mem_singleton.mpr inner⟩
  obtain ⟨merged, mergedOk, overlaid, again⟩ :=
    merge_leaf_law keyed (addsTexts_nested ["b"] _) (addsTexts_nested ["c", "a"] _)
  refine ⟨merged, mergedOk, ?_, ?_, ?_, ?_⟩
  · exact overlaid.taken _ _ rfl rfl rfl
  · apply overlaid.kept _ _ rfl rfl
    · intro other leaf found isLeaf
      constructor
      · rintro ⟨rest, rfl⟩
        cases found
      · intro within
        rw [← List.mem_inits] at within
        simp only [List.inits, List.map_cons, List.map_nil, List.mem_cons, List.not_mem_nil,
          or_false] at within
        rcases within with rfl | rfl | rfl
        · cases found
          cases isLeaf
        · cases found
          cases isLeaf
        · cases found
    · intro entries found
      cases found
  · exact overlaid.united _ _ _ rfl rfl rfl
  · apply again
    intro path right _ found
    obtain ⟨key, rfl, same⟩ := part?_nested found
    rw [part?_record, ← find?_congr same]
    exact ⟨_, rfl⟩

end Config

end ApiCensus
