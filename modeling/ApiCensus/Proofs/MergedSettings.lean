import ApiCensus.Config.Merge
import ApiCensus.Proofs.CurrentLayout
import ApiCensus.Proofs.KeyedSums

/-!
# What a merge does to a setting

Entries of an update are laid over a base one after the other, so what stands under a name in
the merged configuration is reached from what the base has there by the entries of the update
with that name.  Lists of texts under an additive name only grow, and a setting that the update
does not name stays as it is.
-/

namespace ApiCensus.Config

/-- What holds of the setting under a name in the base, and is kept by every entry of the
update with that name, holds in the merged configuration. -/
theorem find?_mergeEntries {name : String} {holds : Option Value → Prop}
    {base update merged : List (Scalar × Value)}
    (success : mergeEntries base update = .ok merged)
    (start : holds (Value.find? (.text name) base))
    (step : ∀ present part result, (.text name, part) ∈ update → holds present →
      mergeValue (.text name) present part = .ok result → holds (some result)) :
    holds (Value.find? (.text name) merged) := by
  induction update generalizing base with
  | nil =>
      rw [mergeEntries] at success
      cases success
      exact start
  | cons entry update induction =>
      obtain ⟨key, part⟩ := entry
      rw [mergeEntries] at success
      obtain ⟨result, resultOk, success⟩ := Outcome.bind_eq_ok_iff.mp success
      apply induction success
      · rw [Value.find?_put]
        split
        · rename_i same
          subst same
          exact step _ part result List.mem_cons_self start resultOk
        · exact start
      · intro present later laterResult member
        exact step present later laterResult (List.mem_cons_of_mem _ member)

theorem find?_mergeEntries_of_not_mem {name : String} {base update merged : List (Scalar × Value)}
    (success : mergeEntries base update = .ok merged)
    (absent : ∀ part, (.text name, part) ∉ update) :
    Value.find? (.text name) merged = Value.find? (.text name) base := by
  apply @find?_mergeEntries name (· = Value.find? (.text name) base) _ _ _ success rfl
  intro present part result member
  exact absurd member (absent part)

theorem merge_eq_ok_iff {base update merged : Value} :
    merge base update = .ok merged ↔
      ∃ below above entries, base = .record below ∧ update = .record above ∧
        mergeEntries below above = .ok entries ∧ merged = .record entries := by
  constructor
  · intro success
    unfold merge at success
    split at success
    · rename_i below above
      rw [map_eq_pure_bind] at success
      obtain ⟨entries, entriesOk, same⟩ := Outcome.bind_eq_ok_iff.mp success
      cases same
      exact ⟨below, above, entries, rfl, rfl, entriesOk, rfl⟩
    · cases success
  · intro ⟨below, above, entries, isBase, isUpdate, entriesOk, isMerged⟩
    subst isBase isUpdate isMerged
    rw [merge, entriesOk]
    rfl

/-! ### Lists of texts -/

theorem scalars_texts (texts : List String) :
    scalars (texts.map Value.text) = .ok (texts.map Scalar.text) := by
  induction texts with
  | nil => rfl
  | cons text texts induction =>
      rw [List.map_cons, scalars, induction]
      rfl

/-- Texts are added to those that are kept unless they are among them. -/
theorem foldl_texts (texts : List String) {done : List String} (fresh : done.Nodup) :
    ∃ kept : List String, (texts.map Scalar.text).foldl (fun done scalar =>
      if done.any (·.same scalar) then done else done ++ [scalar]) (done.map Scalar.text) =
        kept.map Scalar.text ∧ kept.Nodup ∧ ∀ text, text ∈ kept ↔ text ∈ done ∨ text ∈ texts := by
  induction texts generalizing done with
  | nil => exact ⟨done, rfl, fresh, by simp⟩
  | cons text texts induction =>
      have found : (done.map Scalar.text).any (·.same (.text text)) = true ↔ text ∈ done := by
        simp [Scalar.same]
      rw [List.map_cons, List.foldl_cons]
      by_cases known : text ∈ done
      · obtain ⟨kept, same, keptFresh, members⟩ := induction fresh
        rw [if_pos (found.mpr known)]
        refine ⟨kept, same, keptFresh, fun other => ?_⟩
        rw [members, List.mem_cons]
        constructor
        · intro either
          exact either.imp_right .inr
        · intro either
          rcases either with before | same | after
          · exact .inl before
          · exact .inl (same ▸ known)
          · exact .inr after
      · have added : (done ++ [text]).Nodup := by
          rw [← List.concat_eq_append]
          exact List.Nodup.concat known fresh
        obtain ⟨kept, same, keptFresh, members⟩ := induction added
        rw [if_neg (mt found.mp known)]
        refine ⟨kept, ?_, keptFresh, fun other => ?_⟩
        · simpa using same
        · rw [members, List.mem_append, List.mem_singleton, List.mem_cons, or_assoc]

/-- Texts stay texts when repetitions are dropped, and none is lost. -/
theorem distinct_texts (texts : List String) :
    ∃ kept : List String, distinct (texts.map Scalar.text) = kept.map Scalar.text ∧
      kept.Nodup ∧ ∀ text, text ∈ kept ↔ text ∈ texts := by
  obtain ⟨kept, same, fresh, members⟩ := foldl_texts texts List.nodup_nil
  exact ⟨kept, same, fresh, by simpa using members⟩

theorem isSortable_texts (texts : List String) : isSortable (texts.map Scalar.text) = true := by
  match texts with
  | [] => rfl
  | [_] => rfl
  | first :: second :: rest => simp [isSortable, orderKind?]

/-- Texts that are put in order stay texts. -/
theorem mergeSort_texts (texts : List String) :
    (texts.map Scalar.text).mergeSort scalarLe =
      (texts.mergeSort fun left right => !decide (right < left)).map Scalar.text := by
  symm
  apply List.map_mergeSort
  intro left _ right _
  rfl

/-- The union of lists of texts has the texts of both, each once and in their order. -/
theorem exists_union_texts (left right : List String) :
    ∃ texts : List String, union (left.map .text) (right.map .text) = .ok (texts.map .text) ∧
      texts.Pairwise (· < ·) ∧ ∀ text, text ∈ texts ↔ text ∈ left ∨ text ∈ right := by
  obtain ⟨kept, same, fresh, members⟩ := distinct_texts (left ++ right)
  have agrees : ∀ left right : String, (!decide (right < left)) = true ↔ left ≤ right := by
    intro left right
    rw [Bool.not_eq_true', decide_eq_false_iff_not, not_lt]
  have permuted := List.mergeSort_perm kept fun left right => !decide (right < left)
  have ordered := pairwise_mergeSort_of_rank id agrees kept
  refine ⟨kept.mergeSort fun left right => !decide (right < left), ?_, ?_, ?_⟩
  · unfold union
    rw [← List.map_append, scalars_texts]
    simp only [bind, Except.bind]
    rw [same, isSortable_texts, mergeSort_texts, List.map_map]
    rfl
  · apply (ordered.and (permuted.nodup_iff.mpr fresh)).imp
    intro one other both
    exact lt_of_le_of_ne both.1 both.2
  · intro text
    rw [permuted.mem_iff, members, List.mem_append]

theorem union_texts {left right : List String} {result : List Value}
    (success : union (left.map .text) (right.map .text) = .ok result) :
    ∃ texts : List String, result = texts.map .text ∧
      ∀ text, text ∈ texts ↔ text ∈ left ∨ text ∈ right := by
  obtain ⟨texts, unionOk, _, members⟩ := exists_union_texts left right
  cases success.symm.trans unionOk
  exact ⟨texts, rfl, members⟩

/-- A list of texts in which all of the given ones occur. -/
def Holds (texts : List String) (setting : Option Value) : Prop :=
  ∃ more : List String, setting = some (.list (more.map .text)) ∧ texts ⊆ more

/-- A list of texts under an additive name only grows. -/
theorem holds_mergeValue {name : String} (additive : isAdditive (.text name) = true)
    {texts added : List String} {present : Option Value} {result : Value}
    (holds : Holds texts present)
    (success : mergeValue (.text name) present (.list (added.map .text)) = .ok result) :
    Holds texts (some result) := by
  obtain ⟨more, isList, within⟩ := holds
  rw [isList, mergeValue] at success
  simp only [additive, if_true, map_eq_pure_bind] at success
  obtain ⟨united, unitedOk, same⟩ := Outcome.bind_eq_ok_iff.mp success
  cases same
  obtain ⟨all, isAll, members⟩ := union_texts unitedOk
  refine ⟨all, by rw [isAll], fun text inside => ?_⟩
  exact (members text).mpr (.inl (within inside))

/-! ### Updates that add -/

/-- Every entry under the name is a list of texts. -/
def OnlyTexts (name : String) (update : List (Scalar × Value)) : Prop :=
  ∀ part, (.text name, part) ∈ update → ∃ texts : List String, part = .list (texts.map .text)

theorem holds_mergeEntries {name : String} (additive : isAdditive (.text name) = true)
    {texts : List String} {base update merged : List (Scalar × Value)}
    (success : mergeEntries base update = .ok merged)
    (holds : Holds texts (Value.find? (.text name) base)) (only : OnlyTexts name update) :
    Holds texts (Value.find? (.text name) merged) := by
  apply find?_mergeEntries success holds
  intro present part result member presentHolds resultOk
  obtain ⟨added, isList⟩ := only part member
  subst isList
  exact holds_mergeValue additive presentHolds resultOk

/-- The update does not name the separator, excludes by texts and marks instability by texts. -/
structure Adds (update : List (Scalar × Value)) : Prop where
  separator : ∀ part, (.text "path_separator", part) ∉ update
  excluded : OnlyTexts "exclude_paths" update
  stability : ∀ part, (.text "stability", part) ∈ update →
    ∃ settings, part = .record settings ∧ OnlyTexts "unstable_markers" settings

/-- The configuration excludes by these texts and marks instability by these. -/
structure Lists (config : Value) (starts markers : List String) : Prop where
  excluded : config.get? "exclude_paths" = some (.list (starts.map .text))
  marked : (config.get "stability").get? "unstable_markers" = some (.list (markers.map .text))

/-- The settings under `stability` are a record that marks at least these texts. -/
def Marks (markers : List String) (found : Option Value) : Prop :=
  ∃ settings, found = some (.record settings) ∧
    Holds markers (Value.find? (.text "unstable_markers") settings)

theorem Lists.marks {fields : List (Scalar × Value)} {starts markers : List String}
    (lists : Lists (.record fields) starts markers) :
    Marks markers (Value.find? (.text "stability") fields) := by
  have listed := lists.marked
  simp only [Value.get, Value.get?] at listed
  cases found : Value.find? (.text "stability") fields with
  | none =>
      rw [found] at listed
      cases listed
  | some part =>
      rw [found] at listed
      cases part with
      | record settings => exact ⟨settings, rfl, markers, listed, List.Subset.refl _⟩
      | scalar content => cases listed
      | list elements => cases listed

/-- The record under `stability` is merged in turn, and its markers grow inside of it. -/
theorem Marks.mergeEntries {markers : List String} {below entries update : List (Scalar × Value)}
    (marks : Marks markers (Value.find? (.text "stability") below)) (adds : Adds update)
    (entriesOk : mergeEntries below update = .ok entries) :
    Marks markers (Value.find? (.text "stability") entries) := by
  apply find?_mergeEntries entriesOk marks
  intro present part result member presentMarks resultOk
  obtain ⟨settings, isRecord, holds⟩ := presentMarks
  obtain ⟨added, isAdded, only⟩ := adds.stability part member
  subst isRecord isAdded
  rw [mergeValue] at resultOk
  simp only [map_eq_pure_bind] at resultOk
  obtain ⟨inner, innerOk, same⟩ := Outcome.bind_eq_ok_iff.mp resultOk
  cases same
  exact ⟨inner, rfl, holds_mergeEntries rfl innerOk holds only⟩

/-- A configuration over which such an update is laid keeps its separator and everything that
it excludes or marks. -/
theorem lists_merge {base merged : Value} {update : List (Scalar × Value)}
    {starts markers : List String} (lists : Lists base starts markers) (adds : Adds update)
    (success : merge base (.record update) = .ok merged) :
    merged.get? "path_separator" = base.get? "path_separator" ∧
      ∃ moreStarts moreMarkers, Lists merged moreStarts moreMarkers ∧
        starts ⊆ moreStarts ∧ markers ⊆ moreMarkers := by
  obtain ⟨below, above, entries, isBase, isUpdate, entriesOk, isMerged⟩ :=
    merge_eq_ok_iff.mp success
  subst isBase isMerged
  cases isUpdate
  obtain ⟨moreStarts, startsFound, startsWithin⟩ := holds_mergeEntries rfl entriesOk
    ⟨starts, lists.excluded, List.Subset.refl _⟩ adds.excluded
  obtain ⟨settings, settingsFound, moreMarkers, markersFound, markersWithin⟩ :=
    lists.marks.mergeEntries adds entriesOk
  refine ⟨find?_mergeEntries_of_not_mem entriesOk adds.separator, moreStarts, moreMarkers,
    ⟨startsFound, ?_⟩, startsWithin, markersWithin⟩
  simp only [Value.get, Value.get?, settingsFound, Option.getD_some]
  exact markersFound

end ApiCensus.Config
