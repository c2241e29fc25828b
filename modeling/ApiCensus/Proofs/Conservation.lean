import ApiCensus.Proofs.AnalysisStages
import ApiCensus.Proofs.GroupedRows

/-!
# Nothing is lost from the indexes to the report

Every entry of every index is classified once, and every classified item is either counted in
one row or excluded.  Therefore the counts of all rows and the number of excluded items add up
to the number of index entries, and every column of the rows adds up to what the kept items
amount to.
-/

namespace ApiCensus

/-- The categories in which the qualifiers of functions are counted. -/
def Category.functions : List Category :=
  [.function, .method, .requiredMethod, .providedMethod]

/-- What items amount to in each column. -/
def Metrics.amount (items : List ClassifiedItem) : Metrics where
  count := items.length
  visible := items.countP (·.isPublic)
  deprecated := items.countP (·.stability = .deprecated)
  unstable := items.countP (·.stability = .unstable)
  documented := items.countP (·.hasDocs)
  generics := (items.map (·.genericCount)).sum
  constFns := items.countP fun item => item.category ∈ Category.functions && item.isConst
  asyncFns := items.countP fun item => item.category ∈ Category.functions && item.isAsync

theorem Metrics.isFunction_eq (category : Category) :
    ofItem.isFunction category = decide (category ∈ Category.functions) := by
  cases category <;> rfl

theorem Metrics.one_add_countP (holds : ClassifiedItem → Bool) (item : ClassifiedItem)
    (items : List ClassifiedItem) :
    one (holds item) + (items.countP holds : Int) = ((item :: items).countP holds : Int) := by
  rw [List.countP_cons, one]
  split <;> omega

/-- Metrics of single items add up to what the items amount to. -/
theorem Metrics.sum_ofItem (items : List ClassifiedItem) :
    (items.map ofItem).sum = amount items := by
  induction items with
  | nil => rfl
  | cons item items induction =>
      rw [List.map_cons, List.sum_cons, induction]
      change Metrics.add (ofItem item) (amount items) = amount (item :: items)
      simp only [Metrics.add, ofItem, amount, isFunction_eq, ← one_add_countP, mk.injEq,
        ClassifiedItem.isDeprecated, ClassifiedItem.isUnstable, List.map_cons, List.sum_cons,
        List.length_cons, and_true]
      omega

/-- The identifiers of the index entries that a source holds; none if it holds no index. -/
def Index.Source.entryIds (source : Source) : List ItemId :=
  match source.read.bind readRecord with
  | .ok top =>
      match top.get "index" with
      | .record index => index.map (·.1.toText)
      | _ => []
  | .error _ => []

theorem Index.entryIds_of_load {source : Source} {document : Document}
    (loaded : load source = .ok document) : source.entryIds = document.ids := by
  obtain ⟨text, top, textOk, topOk, valueOk⟩ := load_eq_ok_iff.mp loaded
  obtain ⟨index, entries, listed, stages⟩ := ofValue_eq_ok_iff.mp valueOk
  have held : source.read.bind readRecord = .ok top := by
    rw [textOk]
    exact topOk
  unfold Source.entryIds
  rw [held]
  dsimp only
  rw [stages.indexOk, stages.items_ids, readEntries_ids stages.entriesOk]

namespace Analysis

/-- The classification of an analysed source has one record for each entry of its index, in
the order of identifiers. -/
structure Covers (source : Index.Source) (analyzed : AnalyzedDocument) : Prop where
  loaded : Index.load source = .ok analyzed.document
  ordered : analyzed.document.sortedIds = .ok (analyzed.classification.items.map (·.id))
  complete : (analyzed.classification.items.map (·.id)).Perm source.entryIds
  once : (analyzed.classification.items.map (·.id)).Nodup

theorem covers_of_examine {config : Value} {source : Index.Source} {analyzed : AnalyzedDocument}
    (examined : examine config source = .ok analyzed) : Covers source analyzed := by
  obtain ⟨loaded, _, classifiedOk⟩ := examine_eq_ok_iff.mp examined
  have ordered := Document.sortedIds_of_classify classifiedOk
  have permuted : (analyzed.classification.items.map (·.id)).Perm analyzed.document.ids :=
    ItemId.sort_perm ordered
  refine ⟨loaded, ordered, ?_, ?_⟩
  · rw [Index.entryIds_of_load loaded]
    exact permuted
  · exact permuted.nodup_iff.mpr (Index.coherent_of_load loaded).distinct

theorem length_classified {sources : List Index.Source} {documents : List AnalyzedDocument}
    (covered : List.Forall₂ Covers sources documents) :
    (classified documents).length = (sources.map (·.entryIds.length)).sum := by
  induction covered with
  | nil => rfl
  | @cons source analyzed sources documents first _ induction =>
      have here : analyzed.classification.items.length = source.entryIds.length := by
        rw [← first.complete.length_eq, List.length_map]
      rw [classified_cons, List.length_append, here, induction, List.map_cons, List.sum_cons]

/-- The counts of unknown tags add up to the number of items of unknown kind. -/
theorem sum_unrecognized (analysis : Analysis) :
    (analysis.unrecognized.map (·.2)).sum =
      (classified analysis.documents).countP (·.category = .other) := by
  have tallied : ∀ classification : Classification,
      (classification.unrecognized.map (·.2)).sum =
        classification.items.countP (·.category = .other) := by
    intro classification
    rw [Classification.unrecognized, tally, (addUp_merges _).sum_eq, List.map_map]
    simp [Function.comp_def, Classification.unknown, List.countP_eq_length_filter]
  rw [unrecognized, (addUp_merges _).sum_eq]
  induction analysis.documents with
  | nil => rfl
  | cons analyzed documents induction =>
      rw [List.flatMap_cons, List.map_append, List.sum_append, tallied, induction,
        classified_cons, List.countP_append]

/-- Every index entry of every source is classified once; the counts of the rows and the
excluded items add up to the index entries, each column of the rows adds up to what the kept
items amount to, and the counts of unknown tags to the items of unknown kind. -/
theorem nothing_lost {sources : List Index.Source} {grouping : Grouping} {config : Value}
    {analysis : Analysis} (succeeded : run sources grouping config = .ok analysis) :
    List.Forall₂ Covers sources analysis.documents ∧
      (analysis.rows.map (·.metrics.count)).sum + analysis.excluded =
        (((sources.map (·.entryIds.length)).sum : Nat) : Int) ∧
      analysis.items.Sublist (classified analysis.documents) ∧
      (∀ column ∈ Metrics.columns, (analysis.rows.map fun row => column.2 row.metrics).sum =
        column.2 (Metrics.amount analysis.items)) ∧
      (analysis.unrecognized.map (·.2)).sum =
        (classified analysis.documents).countP (·.category = .other) := by
  obtain ⟨documents, excluded, examined, _, _, rfl⟩ := run_eq_ok_iff.mp succeeded
  have covered : List.Forall₂ Covers sources documents :=
    examined.imp fun _ _ found => covers_of_examine found
  have columns : ∀ column ∈ Metrics.columns,
      ((gathered documents grouping excluded).rows.map fun row => column.2 row.metrics).sum =
        column.2 (Metrics.amount (gathered documents grouping excluded).items) := by
    intro column member
    rw [← Metrics.sum_ofItem, gathered, ← sum_aggregate, Metrics.column_sum member, List.map_map]
    rfl
  refine ⟨covered, ?_, List.filter_sublist, columns, sum_unrecognized _⟩
  have counted := columns ("count", Metrics.count) List.mem_cons_self
  have parted := List.length_eq_length_filter_add (l := classified documents) (excludes excluded)
  rw [counted, ← length_classified covered, parted]
  simp only [Metrics.amount, gathered, List.countP_eq_length_filter]
  omega

/-- Of the ten entries in two tangled indexes each is counted or excluded. -/
theorem tangled_nothing_lost : ∃ analysis,
    run [.text Index.tangledText, .text Index.tangledText] .module
      (Config.leavingOut "crate::<unknown>") = .ok analysis ∧
    List.Forall₂ Covers [.text Index.tangledText, .text Index.tangledText] analysis.documents ∧
    (analysis.rows.map (·.metrics.count)).sum + analysis.excluded = 10 ∧
    (analysis.rows.map (·.metrics.generics)).sum =
      (Metrics.amount analysis.items).generics ∧
    (analysis.unrecognized.map (·.2)).sum =
      (classified analysis.documents).countP (·.category = .other) := by
  have regular := Config.regular_leavingOut "crate::<unknown>"
  obtain ⟨analysis, succeeded⟩ := regular.exists_run_eq_ok
    [.text Index.tangledText, .text Index.tangledText] .module
    (by simp [regular.exists_examine_tangled])
  obtain ⟨covered, counts, _, columns, unknown⟩ := nothing_lost succeeded
  obtain ⟨document, loaded, _, ids, _⟩ := Index.load_tangledText
  have size : (Index.Source.text Index.tangledText).entryIds.length = 5 := by
    rw [Index.entryIds_of_load loaded, ids]
    rfl
  refine ⟨analysis, succeeded, covered, ?_,
    columns ("generics", Metrics.generics) (by simp [Metrics.columns]), unknown⟩
  rw [counts, List.map_cons, List.map_cons, List.map_nil, size]
  rfl

end Analysis

end ApiCensus
