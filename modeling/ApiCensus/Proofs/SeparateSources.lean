import ApiCensus.Proofs.AnalysisStages
import ApiCensus.Proofs.GroupedRows
import Mathlib.Data.List.Perm.Basic

/-!
# Sources analysed apart and together

No index has an influence on how another one is read, resolved or classified.  So the analysis
of several sources is made of those of the single sources: rows and unknown tags are merged key
by key, items and cycles are strung together and the excluded items are added.

A run fails in two stages.  All sources are examined before any path is excluded, so the first
source that cannot be examined decides, even if an earlier one fails on its own because its items
cannot be compared with the excluded paths.
-/

namespace ApiCensus.Analysis

variable {sources : List Index.Source} {documents : List AnalyzedDocument}
  {grouping : Grouping} {config excluded : Value}

/-- The whole is made of the parts. -/
structure Combines (parts : List Analysis) (whole : Analysis) : Prop where
  rows : Merges groupRank ((parts.flatMap (·.rows)).map Row.entry) (whole.rows.map Row.entry)
  items : whole.items = parts.flatMap (·.items)
  warnings : whole.warnings = parts.flatMap (·.warnings)
  excluded : whole.excluded = (parts.map (·.excluded)).sum
  unrecognized : Merges id (parts.flatMap (·.unrecognized)) whole.unrecognized

/-- The analyses of the single documents. -/
def separate (documents : List AnalyzedDocument) (grouping : Grouping) (excluded : Value) :
    List Analysis :=
  documents.map fun analyzed => gathered [analyzed] grouping excluded

/-! ### Successful runs -/

theorem run_separate
    (examined : List.Forall₂ (fun source analyzed => examine config source = .ok analyzed)
      sources documents)
    (excludedOk : excludedPaths config = .ok excluded)
    (comparable : ∀ item ∈ classified documents, Comparable excluded item) :
    List.Forall₂ (fun source part => run [source] grouping config = .ok part) sources
      (separate documents grouping excluded) := by
  induction examined with
  | nil => exact .nil
  | @cons source analyzed sources documents first _ induction =>
      rw [classified_cons, List.forall_mem_append] at comparable
      refine .cons (run_eq_ok_iff.mpr ⟨[analyzed], excluded, ?_, excludedOk, ?_, rfl⟩)
        (induction comparable.2)
      · exact .cons first .nil
      · rw [classified_cons, List.forall_mem_append]
        exact ⟨comparable.1, fun item impossible => nomatch impossible⟩

theorem items_separate :
    (gathered documents grouping excluded).items =
      (separate documents grouping excluded).flatMap (·.items) := by
  induction documents with
  | nil => rfl
  | cons analyzed documents induction =>
      rw [separate, List.map_cons, List.flatMap_cons, ← separate, ← induction]
      simp [gathered, classified]

theorem excluded_separate :
    (gathered documents grouping excluded).excluded =
      ((separate documents grouping excluded).map (·.excluded)).sum := by
  induction documents with
  | nil => rfl
  | cons analyzed documents induction =>
      rw [separate, List.map_cons, List.map_cons, List.sum_cons, ← separate, ← induction]
      simp [gathered, classified]

/-- Rows of the kept items of each document, merged, are the rows of all kept items. -/
theorem rows_separate :
    Merges groupRank (((separate documents grouping excluded).flatMap (·.rows)).map Row.entry)
      ((gathered documents grouping excluded).rows.map Row.entry) := by
  have merged : List.Forall₂ (Merges groupRank)
      ((separate documents grouping excluded).map fun part => part.items.map grouping.entry)
      ((separate documents grouping excluded).map fun part => part.rows.map Row.entry) := by
    rw [separate, List.map_map, List.map_map, List.forall₂_map_left_iff,
      List.forall₂_map_right_iff, List.forall₂_same]
    intro analyzed _
    exact aggregate_merges grouping _
  have whole := aggregate_merges grouping (gathered documents grouping excluded).items
  rw [items_separate, List.map_flatMap, List.flatMap_def] at whole
  rw [List.map_flatMap, List.flatMap_def]
  have combined := Merges.of_parts merged whole
  rw [← items_separate] at combined
  exact combined

theorem unrecognized_separate :
    Merges id ((separate documents grouping excluded).flatMap (·.unrecognized))
      (gathered documents grouping excluded).unrecognized := by
  have merged : List.Forall₂ (Merges id) (documents.map (·.classification.unrecognized))
      ((separate documents grouping excluded).map (·.unrecognized)) := by
    rw [separate, List.map_map, List.forall₂_map_left_iff, List.forall₂_map_right_iff,
      List.forall₂_same]
    intro analyzed _
    have single := addUp_merges ([analyzed].flatMap (·.classification.unrecognized))
    nth_rewrite 1 [List.flatMap_singleton] at single
    exact single
  rw [List.flatMap_def]
  apply Merges.of_parts merged
  rw [← List.flatMap_def]
  exact addUp_merges _

theorem combines_separate :
    Combines (separate documents grouping excluded) (gathered documents grouping excluded) where
  rows := rows_separate
  items := items_separate
  warnings := by simp [warnings, gathered, separate, List.flatMap_map]
  excluded := excluded_separate
  unrecognized := unrecognized_separate

/-- Sources in another order have the same rows. -/
theorem run_of_perm {others : List Index.Source} (permuted : sources.Perm others)
    {whole : Analysis} (succeeded : run sources grouping config = .ok whole) :
    ∃ other, run others grouping config = .ok other ∧ other.rows = whole.rows := by
  obtain ⟨documents, excluded, examined, excludedOk, comparable, rfl⟩ :=
    run_eq_ok_iff.mp succeeded
  obtain ⟨reordered, reexamined, moved⟩ := List.perm_comp_forall₂ permuted.symm examined
  have same : (classified reordered).Perm (classified documents) := moved.flatMap_right _
  refine ⟨gathered reordered grouping excluded, run_eq_ok_iff.mpr ⟨reordered, excluded,
    reexamined, excludedOk, fun item member => comparable item (same.mem_iff.mp member), rfl⟩, ?_⟩
  exact aggregate_of_perm (same.filter _) grouping

/-! ### Failing runs -/

/-- The first source at which an attempt fails does so for this cause. -/
def FirstFailure {α : Type} (attempt : Index.Source → Except Failure α)
    (sources : List Index.Source) (cause : Failure) : Prop :=
  ∃ before source after, sources = before ++ source :: after ∧
    (∀ earlier ∈ before, ∃ result, attempt earlier = .ok result) ∧
    attempt source = .error cause

theorem succeed_or_firstFailure {α : Type} (attempt : Index.Source → Except Failure α)
    (sources : List Index.Source) :
    (∀ source ∈ sources, ∃ result, attempt source = .ok result) ∨
      ∃ cause, FirstFailure attempt sources cause := by
  rcases Outcome.forall_or_first (fun source => ∃ result, attempt source = .ok result) sources with
    succeed | ⟨before, source, after, split, earlier, fails⟩
  · exact .inl succeed
  · obtain ⟨cause, failed⟩ := Outcome.exists_eq_error fails
    exact .inr ⟨cause, before, source, after, split, earlier, failed⟩

/-- A source that cannot be examined ends the run, unless an earlier one has. -/
theorem run_of_unexamined {cause : Failure}
    (failure : FirstFailure (examine config) sources cause) :
    run sources grouping config = .error cause := by
  obtain ⟨before, source, after, rfl, earlier, failed⟩ := failure
  obtain ⟨documents, documentsOk⟩ := Outcome.exists_mapM_eq_ok earlier
  unfold run
  rw [List.mapM_append, documentsOk, List.mapM_cons, failed]
  rfl

theorem run_of_examined
    (examined : List.Forall₂ (fun source analyzed => examine config source = .ok analyzed)
      sources documents) :
    run sources grouping config = ofDocuments documents grouping config := by
  unfold run
  rw [Outcome.mapM_eq_ok_iff.mpr examined]
  rfl

/-- The excluded paths are the same for all documents, so either they fail for each document or
the first item that cannot be compared with them decides. -/
theorem ofDocuments_of_first {before after : List AnalyzedDocument} {analyzed : AnalyzedDocument}
    {cause : Failure}
    (earlier : ∀ other ∈ before, ∃ part, ofDocuments [other] grouping config = .ok part)
    (failed : ofDocuments [analyzed] grouping config = .error cause) :
    ofDocuments (before ++ analyzed :: after) grouping config = .error cause := by
  cases excludedOk : excludedPaths config with
  | error reason =>
      unfold ofDocuments at failed ⊢
      rw [excludedOk] at failed ⊢
      exact failed
  | ok excluded =>
      have comparable : ∀ item ∈ classified before, Comparable excluded item := by
        intro item member
        obtain ⟨other, otherMember, inside⟩ := List.mem_flatMap.mp member
        obtain ⟨part, partOk⟩ := earlier other otherMember
        obtain ⟨found, foundOk, passed, _⟩ := ofDocuments_eq_ok_iff.mp partOk
        cases excludedOk.symm.trans foundOk
        exact passed item (List.mem_flatMap.mpr ⟨other, List.mem_singleton_self other, inside⟩)
      rcases comparable_or_first excluded analyzed.classification.items with
        here | ⟨first, item, rest, reason, items, passed, stopped⟩
      · have succeeded : ofDocuments [analyzed] grouping config =
            .ok (gathered [analyzed] grouping excluded) := by
          refine ofDocuments_eq_ok_iff.mpr ⟨excluded, excludedOk, ?_, rfl⟩
          rwa [classified, List.flatMap_singleton]
        rw [succeeded] at failed
        cases failed
      · have single : [analyzed].flatMap (·.classification.items) = first ++ item :: rest := by
          rw [List.flatMap_singleton, items]
        have reached : (before ++ analyzed :: after).flatMap (·.classification.items) =
            (classified before ++ first) ++ item :: (rest ++ classified after) := by
          simp [classified, items]
        have allPassed := List.forall_mem_append.mpr ⟨comparable, passed⟩
        unfold ofDocuments at failed ⊢
        rw [excludedOk] at failed ⊢
        dsimp only [liftM, monadLift, MonadLift.monadLift, Except.mapError, bind, Except.bind]
          at failed ⊢
        rw [single, filterExcluded_of_first passed stopped] at failed
        rw [reached, filterExcluded_of_first allPassed stopped]
        exact failed

/-- Where all sources can be examined, the first one that fails on its own decides. -/
theorem run_of_incomparable {cause : Failure}
    (examined : ∀ source ∈ sources, ∃ analyzed, examine config source = .ok analyzed)
    (failure : FirstFailure (fun source => run [source] grouping config) sources cause) :
    run sources grouping config = .error cause := by
  obtain ⟨before, source, after, rfl, earlier, failed⟩ := failure
  obtain ⟨beforeExamined, laterExamined⟩ := List.forall_mem_append.mp examined
  obtain ⟨⟨analyzed, sourceOk⟩, afterExamined⟩ := List.forall_mem_cons.mp laterExamined
  obtain ⟨analyzedBefore, beforeOk⟩ := Outcome.exists_mapM_eq_ok beforeExamined
  obtain ⟨analyzedAfter, afterOk⟩ := Outcome.exists_mapM_eq_ok afterExamined
  rw [run_of_examined (List.rel_append (Outcome.mapM_eq_ok_iff.mp beforeOk)
    (.cons sourceOk (Outcome.mapM_eq_ok_iff.mp afterOk)))]
  apply ofDocuments_of_first
  · intro other member
    obtain ⟨own, ownMember, ownOk⟩ := Outcome.exists_of_mem_mapM beforeOk member
    obtain ⟨part, partOk⟩ := earlier own ownMember
    exact ⟨part, (run_of_examined (.cons ownOk .nil)).symm.trans partOk⟩
  · exact (run_of_examined (.cons sourceOk .nil)).symm.trans failed

/-- A run whose sources all succeed on their own succeeds. -/
theorem exists_run_of_parts (nonempty : sources ≠ [])
    (succeed : ∀ source ∈ sources, ∃ part, run [source] grouping config = .ok part) :
    ∃ whole, run sources grouping config = .ok whole := by
  have each : ∀ source ∈ sources, ∃ analyzed, examine config source = .ok analyzed ∧
      ∃ excluded, excludedPaths config = .ok excluded ∧
        ∀ item ∈ analyzed.classification.items, Comparable excluded item := by
    intro source member
    obtain ⟨part, partOk⟩ := succeed source member
    obtain ⟨documents, excluded, examined, excludedOk, comparable, _⟩ := run_eq_ok_iff.mp partOk
    cases examined with
    | @cons _ analyzed _ _ sourceOk none =>
        cases none
        refine ⟨analyzed, sourceOk, excluded, excludedOk, ?_⟩
        rwa [classified, List.flatMap_singleton] at comparable
  obtain ⟨source, member⟩ := List.exists_mem_of_ne_nil sources nonempty
  obtain ⟨_, _, excluded, excludedOk, _⟩ := each source member
  obtain ⟨documents, documentsOk⟩ := Outcome.exists_mapM_eq_ok fun source member =>
    (each source member).imp fun _ found => found.1
  refine ⟨_, run_eq_ok_iff.mpr ⟨documents, excluded, Outcome.mapM_eq_ok_iff.mp documentsOk,
    excludedOk, ?_, rfl⟩⟩
  intro item inside
  obtain ⟨analyzed, analyzedMember, inside⟩ := List.mem_flatMap.mp inside
  obtain ⟨own, ownMember, ownOk⟩ := Outcome.exists_of_mem_mapM documentsOk analyzedMember
  obtain ⟨same, sameOk, found, foundOk, comparable⟩ := each own ownMember
  cases ownOk.symm.trans sameOk
  cases excludedOk.symm.trans foundOk
  exact comparable item inside

/-! ### Both together -/

/-- A run is made of the runs over the single sources, and the order of the sources is of no
importance for its rows.  It fails if a source cannot be examined, for the cause of the first
such source; since paths are excluded after that, a source that only fails there decides where
all can be examined. -/
theorem sources_combine (sources : List Index.Source) (grouping : Grouping) (config : Value) :
    (∀ whole, run sources grouping config = .ok whole →
      (∃ parts, List.Forall₂ (fun source part => run [source] grouping config = .ok part)
        sources parts ∧ Combines parts whole) ∧
      ∀ others, sources.Perm others →
        ∃ other, run others grouping config = .ok other ∧ other.rows = whole.rows) ∧
    (sources ≠ [] → ∀ cause, run sources grouping config = .error cause ↔
      FirstFailure (examine config) sources cause ∨
        (∀ source ∈ sources, ∃ analyzed, examine config source = .ok analyzed) ∧
          FirstFailure (fun source => run [source] grouping config) sources cause) := by
  constructor
  · intro whole succeeded
    refine ⟨?_, fun others permuted => run_of_perm permuted succeeded⟩
    obtain ⟨documents, excluded, examined, excludedOk, comparable, rfl⟩ :=
      run_eq_ok_iff.mp succeeded
    exact ⟨_, run_separate examined excludedOk comparable, combines_separate⟩
  · intro nonempty cause
    constructor
    · intro failed
      rcases succeed_or_firstFailure (examine config) sources with examined | ⟨other, failure⟩
      · rcases succeed_or_firstFailure (fun source => run [source] grouping config) sources with
          succeed | ⟨other, failure⟩
        · obtain ⟨whole, succeeded⟩ := exists_run_of_parts nonempty succeed
          cases failed.symm.trans succeeded
        · cases failed.symm.trans (run_of_incomparable examined failure)
          exact .inr ⟨examined, failure⟩
      · cases failed.symm.trans (run_of_unexamined failure)
        exact .inl failure
    · rintro (failure | ⟨examined, failure⟩)
      · exact run_of_unexamined failure
      · exact run_of_incomparable examined failure

/-- A source that holds a list is not loaded. -/
theorem examine_list (config : Value) :
    examine config (.text "[]") = .error (.load .notARecord) := by
  have read : Json.read "[]" = .ok (.list []) := by decide +kernel
  have refused : Index.readRecord "[]" = .error (.load .notARecord) := by
    unfold Index.readRecord
    rw [read]
    rfl
  change (Index.readRecord "[]" >>= Index.ofValue) >>= _ = _
  rw [refused]
  rfl

/-- Two tangled indexes are counted together as they are apart, and a third source that holds a
list ends the run. -/
theorem tangled_sources_combine :
    (∃ part whole,
      run [.text Index.tangledText] .module (Config.leavingOut "crate::<unknown>") = .ok part ∧
      run [.text Index.tangledText, .text Index.tangledText] .module
        (Config.leavingOut "crate::<unknown>") = .ok whole ∧
      Combines [part, part] whole) ∧
    run [.text Index.tangledText, .text "[]", .text ""] .module
      (Config.leavingOut "crate::<unknown>") = .error (.load .notARecord) := by
  have regular := Config.regular_leavingOut "crate::<unknown>"
  constructor
  · obtain ⟨whole, succeeded⟩ := regular.exists_run_eq_ok
      [.text Index.tangledText, .text Index.tangledText] .module
      (by simp [regular.exists_examine_tangled])
    obtain ⟨⟨parts, partsOk, combines⟩, _⟩ := (sources_combine _ _ _).1 whole succeeded
    cases partsOk with
    | @cons _ part _ _ firstOk othersOk =>
        cases othersOk with
        | @cons _ other _ _ secondOk none =>
            cases none
            cases firstOk.symm.trans secondOk
            exact ⟨part, whole, firstOk, succeeded, combines⟩
  · refine ((sources_combine _ _ _).2 (by simp) _).mpr (.inl ?_)
    refine ⟨[.text Index.tangledText], .text "[]", [.text ""], rfl, ?_, ?_⟩
    · simp [regular.exists_examine_tangled]
    · exact examine_list _

/-- A configuration that excludes a number in place of a path. -/
def excludingOne : Value :=
  .ofFields [("exclude_paths", .list [.int 1])]

/-- Which paths are excluded is of no importance for a single source. -/
theorem examine_excludingOne : examine excludingOne = examine (Config.leavingOut "") :=
  examine_of_settings rfl rfl

/-- No path can be compared with a number, and the tangled index has items. -/
theorem run_excludingOne (grouping : Grouping) :
    run [.text Index.tangledText] grouping excludingOne = .error (.shape .unsuited) := by
  obtain ⟨analyzed, analyzedOk⟩ :=
    (Config.regular_leavingOut "").exists_examine_tangled
  obtain ⟨loaded, _, classifiedOk⟩ := examine_eq_ok_iff.mp analyzedOk
  obtain ⟨document, documentOk, _, ids, _⟩ := Index.load_tangledText
  cases loaded.symm.trans documentOk
  have permuted := ItemId.sort_perm (Document.sortedIds_of_classify classifiedOk)
  rw [← examine_excludingOne] at analyzedOk
  rw [run_of_examined (.cons analyzedOk .nil), ofDocuments, List.flatMap_singleton]
  cases items : analyzed.classification.items with
  | nil =>
      rw [items, ids] at permuted
      exact absurd permuted.length_eq nofun
  | cons item rest => rfl

/-- A source that fails on its own is overtaken by a later one that cannot be examined. -/
theorem exclusion_overtaken :
    FirstFailure (fun source => run [source] .category excludingOne)
        [.text Index.tangledText, .text "[]"] (.shape .unsuited) ∧
      run [.text Index.tangledText, .text "[]"] .category excludingOne =
        .error (.load .notARecord) := by
  constructor
  · exact ⟨[], _, _, rfl, nofun, run_excludingOne .category⟩
  · apply run_of_unexamined
    refine ⟨[.text Index.tangledText], .text "[]", [], rfl, ?_, examine_list _⟩
    rw [examine_excludingOne]
    simp [(Config.regular_leavingOut "").exists_examine_tangled]

end ApiCensus.Analysis
