import ApiCensus.Analysis.Basic
import ApiCensus.Proofs.TotalResolution

/-!
# The stages of an analysis

An analysis succeeds exactly if every source can be loaded, resolved and classified and every
item can be compared with the excluded paths; its parts are then given by those of the
documents.  Under a regular configuration only loading can fail.
-/

namespace ApiCensus

/-! ### Classified items -/

/-- What a classified item takes over from its item, apart from stability and texts. -/
structure Census.Records (document : Document) (resolution : Resolution) (item : Item)
    (classified : ClassifiedItem) : Prop where
  id : classified.id = item.id
  category : classified.category = Category.ofItem item
    ((((container? resolution item).filter (!·.isEmpty)).bind document.item?).map (·.kind))
  methodCount : classified.methodCount = countMethods document item

theorem Census.records_of_classifyItem {document : Document} {resolution : Resolution}
    {settings : ClassifySettings} {item : Item} {classified : ClassifiedItem}
    (success : classifyItem document resolution settings item = .ok classified) :
    Records document resolution item classified := by
  unfold classifyItem at success
  obtain ⟨stability, _, success⟩ := Outcome.bind_eq_ok_iff.mp success
  obtain ⟨generics, _, success⟩ := Outcome.bind_eq_ok_iff.mp success
  cases success
  exact ⟨rfl, rfl, rfl⟩

/-- The items are classified one by one in the order of their identifiers. -/
theorem Document.classify_eq_ok_iff {document : Document} {resolution : Resolution}
    {config : Value} {classification : Classification} :
    document.classify resolution config = .ok classification ↔ ∃ ids settings,
      document.sortedIds = .ok ids ∧ ClassifySettings.ofConfig config = .ok settings ∧
      List.Forall₂ (fun item classified =>
        Census.classifyItem document resolution settings item = .ok classified)
        (ids.filterMap document.item?) classification.items := by
  constructor
  · intro success
    obtain ⟨ids, sorted, success⟩ := Outcome.bind_eq_ok_iff.mp success
    obtain ⟨settings, settingsOk, success⟩ := Outcome.bind_eq_ok_iff.mp success
    obtain ⟨items, itemsOk, same⟩ := Outcome.bind_eq_ok_iff.mp success
    cases same
    refine ⟨ids, settings, Outcome.liftM_integer_eq_ok_iff.mp sorted,
      Outcome.liftM_shape_eq_ok_iff.mp settingsOk, ?_⟩
    exact (Outcome.mapM_eq_ok_iff.mp itemsOk).imp fun _ _ => Outcome.liftM_shape_eq_ok_iff.mp
  · intro ⟨ids, settings, sorted, settingsOk, classifiedOk⟩
    refine Outcome.bind_eq_ok_iff.mpr ⟨ids, Outcome.liftM_integer_eq_ok_iff.mpr sorted, ?_⟩
    refine Outcome.bind_eq_ok_iff.mpr ⟨settings, Outcome.liftM_shape_eq_ok_iff.mpr settingsOk, ?_⟩
    refine Outcome.bind_eq_ok_iff.mpr ⟨classification.items, ?_, rfl⟩
    rw [Outcome.mapM_eq_ok_iff]
    exact classifiedOk.imp fun _ _ => Outcome.liftM_shape_eq_ok_iff.mpr

/-- A classification has one record for each identifier of the index, in their order. -/
theorem Document.sortedIds_of_classify {document : Document} {resolution : Resolution}
    {config : Value} {classification : Classification}
    (success : document.classify resolution config = .ok classification) :
    document.sortedIds = .ok (classification.items.map (·.id)) := by
  obtain ⟨ids, settings, sorted, _, classifiedOk⟩ := classify_eq_ok_iff.mp success
  have kept : classification.items.map (·.id) = (ids.filterMap document.item?).map (·.id) := by
    symm
    rw [← List.forall₂_eq_eq_eq, List.forall₂_map_left_iff, List.forall₂_map_right_iff]
    exact classifiedOk.imp fun _ _ success => (Census.records_of_classifyItem success).id.symm
  have found : (ids.filterMap document.item?).map (·.id) = ids := by
    rw [List.map_filterMap]
    have each : ∀ id ∈ ids, (document.item? id).map (·.id) = some id := by
      intro id member
      have inside : id ∈ document.ids := (ItemId.sort_perm sorted).mem_iff.mp member
      obtain ⟨item, itemFound⟩ := Document.exists_item_of_mem_ids inside
      rw [itemFound, Option.map_some, (Document.mem_of_item?_eq_some itemFound).2]
    rw [List.filterMap_congr each, List.filterMap_some]
  rw [kept, found]
  exact sorted

/-! ### Excluded items -/

/-- Whether an item is left out; one that cannot be compared is not. -/
def excludes (excluded : Value) (item : ClassifiedItem) : Bool :=
  (isExcluded excluded item).toOption.getD false

/-- The item can be compared with the excluded paths. -/
def Comparable (excluded : Value) (item : ClassifiedItem) : Prop :=
  ∃ drop, isExcluded excluded item = .ok drop

theorem filterExcluded_of_comparable {excluded : Value} {items : List ClassifiedItem}
    (comparable : ∀ item ∈ items, Comparable excluded item) :
    filterExcluded excluded items =
      .ok (items.filter (!excludes excluded ·), items.countP (excludes excluded)) := by
  induction items with
  | nil => rfl
  | cons item items induction =>
      obtain ⟨⟨drop, first⟩, rest⟩ := List.forall_mem_cons.mp comparable
      have dropped : excludes excluded item = drop := by
        rw [excludes, first]
        rfl
      rw [filterExcluded, first, induction rest]
      cases drop with
      | true => simp [dropped, bind, Except.bind, pure, Except.pure]
      | false => simp [dropped, bind, Except.bind, pure, Except.pure]

/-- The first item that cannot be compared decides. -/
theorem filterExcluded_of_first {excluded : Value} {before after : List ClassifiedItem}
    {item : ClassifiedItem} {cause : ShapeError}
    (comparable : ∀ earlier ∈ before, Comparable excluded earlier)
    (failed : isExcluded excluded item = .error cause) :
    filterExcluded excluded (before ++ item :: after) = .error cause := by
  induction before with
  | nil =>
      rw [List.nil_append, filterExcluded, failed]
      rfl
  | cons first before induction =>
      obtain ⟨⟨drop, firstOk⟩, rest⟩ := List.forall_mem_cons.mp comparable
      rw [List.cons_append, filterExcluded, firstOk, induction rest]
      rfl

theorem comparable_or_first (excluded : Value) (items : List ClassifiedItem) :
    (∀ item ∈ items, Comparable excluded item) ∨
      ∃ before item after cause, items = before ++ item :: after ∧
        (∀ earlier ∈ before, Comparable excluded earlier) ∧
        isExcluded excluded item = .error cause := by
  rcases Outcome.forall_or_first (Comparable excluded) items with
    comparable | ⟨before, item, after, split, earlier, fails⟩
  · exact .inl comparable
  · obtain ⟨cause, failed⟩ := Outcome.exists_eq_error fails
    exact .inr ⟨before, item, after, cause, split, earlier, failed⟩

theorem filterExcluded_eq_ok_iff {excluded : Value} {items kept : List ClassifiedItem}
    {count : Nat} :
    filterExcluded excluded items = .ok (kept, count) ↔
      (∀ item ∈ items, Comparable excluded item) ∧
        kept = items.filter (!excludes excluded ·) ∧ count = items.countP (excludes excluded) := by
  constructor
  · intro success
    rcases comparable_or_first excluded items with
      comparable | ⟨before, item, after, cause, rfl, earlier, failed⟩
    · rw [filterExcluded_of_comparable comparable] at success
      cases success
      exact ⟨comparable, rfl, rfl⟩
    · rw [filterExcluded_of_first earlier failed] at success
      cases success
  · rintro ⟨comparable, rfl, rfl⟩
    exact filterExcluded_of_comparable comparable

/-! ### Analyses -/

namespace Analysis

/-- The items of documents. -/
def classified (documents : List AnalyzedDocument) : List ClassifiedItem :=
  documents.flatMap (·.classification.items)

@[simp] theorem classified_cons (analyzed : AnalyzedDocument) (documents : List AnalyzedDocument) :
    classified (analyzed :: documents) = analyzed.classification.items ++ classified documents :=
  List.flatMap_cons

/-- The analysis of documents whose items can all be compared with the excluded paths. -/
def gathered (documents : List AnalyzedDocument) (grouping : Grouping) (excluded : Value) :
    Analysis where
  grouping
  rows := aggregate grouping ((classified documents).filter (!excludes excluded ·))
  items := (classified documents).filter (!excludes excluded ·)
  excluded := (classified documents).countP (excludes excluded)
  documents

theorem examine_eq_ok_iff {config : Value} {source : Index.Source} {analyzed : AnalyzedDocument} :
    examine config source = .ok analyzed ↔
      Index.load source = .ok analyzed.document ∧
        analyzed.document.resolve config = .ok analyzed.resolution ∧
        analyzed.document.classify analyzed.resolution config = .ok analyzed.classification := by
  constructor
  · intro success
    obtain ⟨document, loaded, success⟩ := Outcome.bind_eq_ok_iff.mp success
    obtain ⟨resolution, resolved, success⟩ := Outcome.bind_eq_ok_iff.mp success
    obtain ⟨classification, classifiedOk, same⟩ := Outcome.bind_eq_ok_iff.mp success
    cases same
    exact ⟨loaded, resolved, classifiedOk⟩
  · rintro ⟨loaded, resolved, classifiedOk⟩
    exact Outcome.bind_eq_ok_iff.mpr ⟨_, loaded, Outcome.bind_eq_ok_iff.mpr
      ⟨_, resolved, Outcome.bind_eq_ok_iff.mpr ⟨_, classifiedOk, rfl⟩⟩⟩

/-- Examining a source depends on the separator and on the settings of the classification. -/
theorem examine_of_settings {config other : Value}
    (separators : pathSeparator config = pathSeparator other)
    (settings : ClassifySettings.ofConfig config = ClassifySettings.ofConfig other) :
    examine config = examine other := by
  funext source
  unfold examine Document.analyze Document.resolve Document.classify
  simp only [separators, settings]

theorem ofDocuments_eq_ok_iff {documents : List AnalyzedDocument} {grouping : Grouping}
    {config : Value} {analysis : Analysis} :
    ofDocuments documents grouping config = .ok analysis ↔
      ∃ excluded, excludedPaths config = .ok excluded ∧
        (∀ item ∈ classified documents, Comparable excluded item) ∧
        analysis = gathered documents grouping excluded := by
  constructor
  · intro success
    obtain ⟨excluded, excludedOk, success⟩ := Outcome.bind_eq_ok_iff.mp success
    obtain ⟨⟨kept, count⟩, filtered, same⟩ := Outcome.bind_eq_ok_iff.mp success
    obtain ⟨comparable, rfl, rfl⟩ :=
      filterExcluded_eq_ok_iff.mp (Outcome.liftM_shape_eq_ok_iff.mp filtered)
    cases same
    exact ⟨excluded, Outcome.liftM_shape_eq_ok_iff.mp excludedOk, comparable, rfl⟩
  · rintro ⟨excluded, excludedOk, comparable, rfl⟩
    exact Outcome.bind_eq_ok_iff.mpr ⟨excluded, Outcome.liftM_shape_eq_ok_iff.mpr excludedOk,
      Outcome.bind_eq_ok_iff.mpr ⟨_, Outcome.liftM_shape_eq_ok_iff.mpr
        (filterExcluded_of_comparable comparable), rfl⟩⟩

theorem run_eq_ok_iff {sources : List Index.Source} {grouping : Grouping} {config : Value}
    {analysis : Analysis} :
    run sources grouping config = .ok analysis ↔
      ∃ documents excluded,
        List.Forall₂ (fun source analyzed => examine config source = .ok analyzed)
          sources documents ∧
        excludedPaths config = .ok excluded ∧
        (∀ item ∈ classified documents, Comparable excluded item) ∧
        analysis = gathered documents grouping excluded := by
  unfold run
  rw [Outcome.bind_eq_ok_iff]
  simp only [Outcome.mapM_eq_ok_iff, ofDocuments_eq_ok_iff]
  constructor
  · rintro ⟨documents, examined, excluded, rest⟩
    exact ⟨documents, excluded, examined, rest⟩
  · rintro ⟨documents, excluded, examined, rest⟩
    exact ⟨documents, examined, excluded, rest⟩

theorem grouping_of_run {sources : List Index.Source} {grouping : Grouping} {config : Value}
    {analysis : Analysis} (succeeded : run sources grouping config = .ok analysis) :
    analysis.grouping = grouping := by
  obtain ⟨documents, excluded, _, _, _, rfl⟩ := run_eq_ok_iff.mp succeeded
  rfl

end Analysis

/-! ### Regular configurations -/

/-- A configuration in which every setting of an analysis has its expected shape. -/
structure Config.Regular (config : Value) : Prop where
  separator : ∃ separator, pathSeparator config = .ok separator
  settings : ∃ (markers : List String) (generics : List (Scalar × Value)),
    ClassifySettings.ofConfig config = .ok ⟨.list (markers.map .text), .record generics⟩
  excluded : ∃ starts : List String,
    Analysis.excludedPaths config = .ok (.list (starts.map .text))

namespace Stability

/-- The tier that markers give to an item by its own metadata. -/
def tier (markers : List String) (item : Item) : Stability :=
  if item.deprecation.isSome then .deprecated
  else if item.attrs.any fun attr => markers.any (Text.contains attr) then .unstable
  else .stable

/-- The tier that markers give to an item of a document; an impl block takes instability over
from its trait. -/
def tierIn (document : Document) (markers : List String) (item : Item) : Stability :=
  if tier markers item = .stable ∧ item.kind = .impl ∧
      (implementedTrait? document item).any (tier markers · = .unstable) then .unstable
  else tier markers item

theorem isMarked_texts (attr : String) (markers : List String) :
    isMarked attr (markers.map .text) = .ok (markers.any (Text.contains attr)) := by
  induction markers with
  | nil => rfl
  | cons marker markers induction =>
      rw [List.map_cons, isMarked, induction, List.any_cons]
      cases Text.contains attr marker <;> rfl

theorem anyMarked_texts (markers attrs : List String) :
    anyMarked (markers.map .text) attrs =
      .ok (attrs.any fun attr => markers.any (Text.contains attr)) := by
  induction attrs with
  | nil => rfl
  | cons attr attrs induction =>
      rw [anyMarked, isMarked_texts, induction, List.any_cons]
      cases markers.any (Text.contains attr) <;> rfl

theorem own_texts (markers : List String) (item : Item) :
    own (.list (markers.map .text)) item = .ok (tier markers item) := by
  unfold own tier
  split
  · rfl
  · simp only [Value.members, bind, Except.bind, anyMarked_texts]
    rfl

theorem ofItem_texts (document : Document) (markers : List String) (item : Item) :
    ofItem document (.list (markers.map .text)) item = .ok (tierIn document markers item) := by
  unfold ofItem tierIn
  simp only [own_texts, bind, Except.bind]
  by_cases own : tier markers item = .stable
  · by_cases block : item.kind = .impl
    · cases implementedTrait? document item with
      | none => simp [own, block, pure, Except.pure]
      | some trait => simp [own, block, pure, Except.pure]
    · simp [own, block, pure, Except.pure]
  · simp [own, pure, Except.pure]

end Stability

theorem startsExcluded_texts (path : String) (starts : List String) :
    startsExcluded path (starts.map .text) =
      .ok (starts.any fun start => start.toList.isPrefixOf path.toList) := by
  induction starts with
  | nil => rfl
  | cons start starts induction =>
      rw [List.map_cons, startsExcluded, induction, List.any_cons]
      cases start.toList.isPrefixOf path.toList <;> rfl

theorem isExcluded_texts (starts : List String) (item : ClassifiedItem) :
    isExcluded (.list (starts.map .text)) item =
      .ok (starts.any fun start => start.toList.isPrefixOf item.path.toList) := by
  cases starts with
  | nil => rfl
  | cons start starts => exact startsExcluded_texts item.path (start :: starts)

theorem comparable_of_texts (starts : List String) (item : ClassifiedItem) :
    Comparable (.list (starts.map .text)) item :=
  ⟨_, isExcluded_texts starts item⟩

namespace Config.Regular

variable {config : Value}

theorem exists_resolve_eq_ok (regular : Regular config) {document : Document}
    (coherent : document.Coherent) (ordered : document.OrdersContainers) :
    ∃ resolution, document.resolve config = .ok resolution := by
  obtain ⟨separator, separatorOk⟩ := regular.separator
  obtain ⟨_, paths, next, _, resolved, _⟩ :=
    @Resolver.exists_resolveAll_of_ordered document separator {} coherent ordered .refl
  refine ⟨⟨paths, next.reports, separator⟩, ?_⟩
  refine Outcome.bind_eq_ok_iff.mpr
    ⟨separator, Outcome.liftM_shape_eq_ok_iff.mpr separatorOk, ?_⟩
  rw [resolved]
  rfl

theorem exists_classify_eq_ok (regular : Regular config) {document : Document}
    (coherent : document.Coherent) (resolution : Resolution) :
    ∃ classification, document.classify resolution config = .ok classification := by
  obtain ⟨markers, generics, settingsOk⟩ := regular.settings
  obtain ⟨ids, sorted⟩ : ∃ ids, document.sortedIds = .ok ids :=
    ItemId.exists_sort_eq_ok coherent.keyed
  have each : ∀ item ∈ ids.filterMap document.item?, ∃ classified,
      Census.classifyItem document resolution
        ⟨.list (markers.map .text), .record generics⟩ item = .ok classified := by
    intro item _
    unfold Census.classifyItem
    dsimp only
    rw [Stability.ofItem_texts]
    exact ⟨_, rfl⟩
  obtain ⟨items, itemsOk⟩ := Outcome.exists_mapM_eq_ok each
  exact ⟨⟨items⟩, Document.classify_eq_ok_iff.mpr
    ⟨ids, _, sorted, settingsOk, Outcome.mapM_eq_ok_iff.mp itemsOk⟩⟩

theorem exists_analyze_eq_ok (regular : Regular config) {document : Document}
    (coherent : document.Coherent) (ordered : document.OrdersContainers) :
    ∃ analyzed, document.analyze config = .ok analyzed := by
  obtain ⟨resolution, resolved⟩ := regular.exists_resolve_eq_ok coherent ordered
  obtain ⟨classification, classifiedOk⟩ := regular.exists_classify_eq_ok coherent resolution
  exact ⟨⟨document, resolution, classification⟩, Outcome.bind_eq_ok_iff.mpr
    ⟨resolution, resolved, Outcome.bind_eq_ok_iff.mpr ⟨classification, classifiedOk, rfl⟩⟩⟩

/-- Under a regular configuration an index that can be loaded, and whose containers can be
ordered, is analysed. -/
theorem exists_examine_eq_ok (regular : Regular config) {source : Index.Source}
    {document : Document} (loaded : Index.load source = .ok document)
    (ordered : document.OrdersContainers) :
    ∃ analyzed, Analysis.examine config source = .ok analyzed := by
  obtain ⟨analyzed, analyzedOk⟩ :=
    regular.exists_analyze_eq_ok (Index.coherent_of_load loaded) ordered
  exact ⟨analyzed, Outcome.bind_eq_ok_iff.mpr ⟨document, loaded, analyzedOk⟩⟩

theorem exists_ofDocuments_eq_ok (regular : Regular config) (documents : List AnalyzedDocument)
    (grouping : Grouping) :
    ∃ analysis, Analysis.ofDocuments documents grouping config = .ok analysis := by
  obtain ⟨starts, startsOk⟩ := regular.excluded
  exact ⟨_, Analysis.ofDocuments_eq_ok_iff.mpr
    ⟨_, startsOk, fun item _ => comparable_of_texts starts item, rfl⟩⟩

/-- Under a regular configuration an analysis fails only if one of its sources does. -/
theorem exists_run_eq_ok (regular : Regular config) (sources : List Index.Source)
    (grouping : Grouping)
    (examined : ∀ source ∈ sources, ∃ analyzed, Analysis.examine config source = .ok analyzed) :
    ∃ analysis, Analysis.run sources grouping config = .ok analysis := by
  obtain ⟨documents, documentsOk⟩ := Outcome.exists_mapM_eq_ok examined
  obtain ⟨analysis, analysisOk⟩ := regular.exists_ofDocuments_eq_ok documents grouping
  exact ⟨analysis, Outcome.bind_eq_ok_iff.mpr ⟨documents, documentsOk, analysisOk⟩⟩

theorem exists_examine_tangled (regular : Regular config) :
    ∃ analyzed, Analysis.examine config (.text Index.tangledText) = .ok analyzed := by
  obtain ⟨document, loaded, keyed, _⟩ := Index.load_tangledText
  exact regular.exists_examine_eq_ok loaded
    (Resolver.ordersContainers_of_keyed (Index.coherent_of_load loaded) keyed)

end Config.Regular

theorem Config.regular_defaults : Regular defaults where
  separator := ⟨"::", rfl⟩
  settings := ⟨["#[unstable"], _, rfl⟩
  excluded := ⟨[], rfl⟩

/-- A configuration that leaves out one path. -/
def Config.leavingOut (start : String) : Value :=
  .ofFields [("exclude_paths", .list [.text start])]

theorem Config.regular_leavingOut (start : String) : Regular (leavingOut start) where
  separator := ⟨"::", rfl⟩
  settings := ⟨["#[unstable"], [], rfl⟩
  excluded := ⟨[start], rfl⟩

end ApiCensus
