import ApiCensus.Proofs.Conservation
import ApiCensus.Proofs.OrderedContainers
import ApiCensus.Proofs.ReadingTexts
import ApiCensus.Proofs.WrittenRatios
import Mathlib.Algebra.BigOperators.Ring.Finset
import Mathlib.Algebra.Order.BigOperators.Group.List

/-!
# Reports of an index are read back

An index that can be loaded is analysed, the rows are written as comma-separated values, and the
text is read again.  This gives back all entries of the index exactly if the containers can be
ordered, the counts can be written, and the texts of the second dimension can be read.  Modules and
crates are named by the index, and a name can be too long for the reader.  A carriage return in a
name is harmless if the printer puts it between quotes, which one that does not quote it for
itself does only beside a comma, a quote or a line feed.
-/

namespace ApiCensus

/-! ### Rows that are written and read -/

namespace Report

/-- Write rows as comma-separated values and read them. -/
def reread (printer : Printer) (grouping : Grouping) (config : Value) (rows : List Row) :
    Except Failure (List Row) := do
  let text ← emit printer .csv grouping config rows [] []
  readCsv text

variable {printer : Printer} {grouping : Grouping} {config : Value} {precision : Int} {count : Nat}
  {rows : List Row}

/-- Rows that can be written are read back exactly if the texts of their groups can be read. -/
theorem reread_of_expressible (precisionOk : precisionOf config = .ok precision)
    (asked : places precision = .ok count)
    (few : count + Binary64.wholeDigits + 2 ≤ Csv.fieldLimit)
    (expressible : ∀ row ∈ rows, Expressible row.metrics) :
    reread printer grouping config rows =
      if ∀ row ∈ rows, Csv.Sound printer.quotesReturns (keyCells grouping row) then
        .ok (rows.map (readBack grouping))
      else .error .csv := by
  have each : ∀ row ∈ rows, ∃ record, cells grouping precision row = .ok record :=
    fun row inside => (exists_cells_iff grouping asked).mpr (expressible row inside)
  obtain ⟨records, recordsOk⟩ := Outcome.exists_mapM_eq_ok each
  have written := Outcome.mapM_eq_ok_iff.mp recordsOk
  have emitted : emit printer .csv grouping config rows [] [] =
      .ok (Csv.write printer.quotesReturns (columns grouping :: records)) :=
    emit_csv_eq_ok_iff.mpr ⟨precision, records, precisionOk, written, rfl⟩
  have sound : (∀ record ∈ records, Csv.Sound printer.quotesReturns record) ↔
      ∀ row ∈ rows, Csv.Sound printer.quotesReturns (keyCells grouping row) := by
    rw [forall_sound_iff written]
    simp only [ratiosFit_of_places asked few, and_true]
  unfold reread
  rw [emitted]
  dsimp only [bind, Except.bind]
  by_cases keys : ∀ row ∈ rows, Csv.Sound printer.quotesReturns (keyCells grouping row)
  · rw [if_pos keys]
    exact readCsv_of_sound written (sound.mpr keys)
  · rw [if_neg keys]
    exact readCsv_of_unsound written fun all => keys (sound.mp all)

theorem reread_eq_ok_iff (precisionOk : precisionOf config = .ok precision)
    (asked : places precision = .ok count)
    (few : count + Binary64.wholeDigits + 2 ≤ Csv.fieldLimit) {restored : List Row} :
    reread printer grouping config rows = .ok restored ↔
      ((∀ row ∈ rows, Expressible row.metrics) ∧
          ∀ row ∈ rows, Csv.Sound printer.quotesReturns (keyCells grouping row)) ∧
        restored = rows.map (readBack grouping) := by
  constructor
  · intro success
    have expressible : ∀ row ∈ rows, Expressible row.metrics := by
      obtain ⟨text, emitted, _⟩ := Outcome.bind_eq_ok_iff.mp success
      obtain ⟨found, records, foundOk, written, _⟩ := emit_csv_eq_ok_iff.mp emitted
      cases precisionOk.symm.trans foundOk
      intro row inside
      obtain ⟨record, _, recordOk⟩ :=
        Outcome.exists_mem_of_mapM (Outcome.mapM_eq_ok_iff.mpr written) inside
      exact (exists_cells_iff grouping asked).mp ⟨record, recordOk⟩
    rw [reread_of_expressible precisionOk asked few expressible] at success
    split at success
    · rename_i keys
      exact ⟨⟨expressible, keys⟩, (Except.ok.inj success).symm⟩
    · cases success
  · rintro ⟨⟨expressible, keys⟩, rfl⟩
    rw [reread_of_expressible precisionOk asked few expressible, if_pos keys]

end Report

/-! ### Rows of items -/

section

variable {grouping : Grouping} {items : List ClassifiedItem} {row : Row}

theorem Category.legible_name (quoting : Bool) (category : Category) :
    Csv.Legible quoting category.name := by
  cases quoting <;> cases category <;> decide

theorem keyCells_groupRow (grouping : Grouping) (items : List ClassifiedItem)
    (item : ClassifiedItem) :
    Report.keyCells grouping (groupRow grouping items (grouping.key item)) =
      item.category.name :: (grouping.dimensionOf item).toList := by
  cases grouping <;> rfl

/-- Of the texts that tell the groups of items only those of the second dimension can be
illegible. -/
theorem sound_aggregate_iff {quoting : Bool} :
    (∀ row ∈ aggregate grouping items, Csv.Sound quoting (Report.keyCells grouping row)) ↔
      ∀ item ∈ items, ∀ text ∈ grouping.dimensionOf item, Csv.Legible quoting text := by
  simp only [mem_aggregate, forall_exists_index, and_imp, forall_apply_eq_imp_iff₂,
    keyCells_groupRow, Csv.Sound, List.forall_mem_cons, Category.legible_name, true_and,
    Option.mem_toList, Option.mem_def]

theorem Metrics.natAbs_amount_lt {bound : Nat} (few : items.length < bound)
    (fewGenerics : (items.map (·.genericCount)).sum < bound)
    {column : String × (Metrics → Int)} (inside : column ∈ columns) :
    (column.2 (amount items)).natAbs < bound := by
  have counted : ∀ holds : ClassifiedItem → Bool, items.countP holds < bound :=
    fun holds => Nat.lt_of_le_of_lt List.countP_le_length few
  have generic : (items.map fun item => (item.genericCount : Int)).sum =
      (((items.map (·.genericCount)).sum : Nat) : Int) := by
    rw [Nat.cast_list_sum, List.map_map]
    rfl
  simp only [columns, List.mem_cons, List.not_mem_nil, or_false] at inside
  rcases inside with rfl | rfl | rfl | rfl | rfl | rfl | rfl | rfl
  · exact few
  · exact counted _
  · exact counted _
  · exact counted _
  · exact counted _
  · change (items.map fun item => (item.genericCount : Int)).sum.natAbs < bound
    rw [generic]
    exact fewGenerics
  · exact counted _
  · exact counted _

/-- The rows of not too many items can be written. -/
theorem expressible_of_mem_aggregate (few : items.length < Nat.pow 10 290)
    (fewGenerics : (items.map (·.genericCount)).sum < Nat.pow 10 290)
    (member : row ∈ aggregate grouping items) : Report.Expressible row.metrics := by
  obtain ⟨item, _, rfl⟩ := mem_aggregate.mp member
  apply Report.expressible_of_small
  intro column inside
  dsimp only [groupRow]
  rw [Metrics.sum_ofItem]
  refine Metrics.natAbs_amount_lt ?_ ?_ inside
  · exact Nat.lt_of_le_of_lt (List.length_filter_le _ _) few
  · refine Nat.lt_of_le_of_lt ?_ fewGenerics
    exact (List.filter_sublist.map _).sum_le_sum fun _ _ => Nat.zero_le _

end

/-! ### Items of a document -/

/-- What a classified item takes over from its item. -/
structure Census.Describes (document : Document) (item : Item) (classified : ClassifiedItem) :
    Prop where
  crate : classified.crate = document.crateOf item.id
  generics : classified.genericCount ≤ item.generics.length

theorem Census.describes_of_classifyItem {document : Document} {resolution : Resolution}
    {settings : ClassifySettings} {item : Item} {classified : ClassifiedItem}
    (success : classifyItem document resolution settings item = .ok classified) :
    Describes document item classified := by
  unfold classifyItem at success
  obtain ⟨stability, _, success⟩ := Outcome.bind_eq_ok_iff.mp success
  obtain ⟨generics, _, success⟩ := Outcome.bind_eq_ok_iff.mp success
  cases success
  exact ⟨rfl, List.countP_le_length⟩

/-- A classification describes the items of the document in some order. -/
theorem Document.Coherent.described {document : Document} (coherent : document.Coherent)
    {resolution : Resolution} {config : Value} {classification : Classification}
    (success : document.classify resolution config = .ok classification) :
    ∃ ordered, ordered.Perm document.items ∧
      List.Forall₂ (Census.Describes document) ordered classification.items := by
  obtain ⟨ids, settings, sorted, _, classifiedOk⟩ := classify_eq_ok_iff.mp success
  refine ⟨ids.filterMap document.item?, ?_, ?_⟩
  · have permuted := (ItemId.sort_perm sorted).filterMap document.item?
    have found : document.ids.filterMap document.item? = document.items := by
      rw [Document.ids, List.filterMap_map]
      have each : ∀ item ∈ document.items, (document.item? ∘ (·.id)) item = some item :=
        fun _ member => coherent.item?_id member
      rw [List.filterMap_congr each, List.filterMap_some]
    rw [found] at permuted
    exact permuted
  · exact classifiedOk.imp fun _ _ => Census.describes_of_classifyItem

namespace Analysis

variable {source : Index.Source} {document : Document} {grouping : Grouping} {analysis : Analysis}

/-- By default nothing is left out. -/
theorem items_of_run (succeeded : run [source] grouping Config.defaults = .ok analysis) :
    ∃ analyzed, examine Config.defaults source = .ok analyzed ∧
      analysis.items = analyzed.classification.items ∧
      analysis.rows = aggregate grouping analysis.items := by
  obtain ⟨documents, excluded, examined, excludedOk, _, rfl⟩ := run_eq_ok_iff.mp succeeded
  cases examined with
  | @cons _ analyzed _ rest first none =>
      cases none
      cases excludedOk
      refine ⟨analyzed, first, ?_, rfl⟩
      have kept : ∀ item ∈ classified [analyzed], (!excludes (.list []) item) = true :=
        fun _ _ => rfl
      exact (List.filter_eq_self.mpr kept).trans (List.append_nil _)

/-- The rows count all entries of the index. -/
theorem sum_counts_of_run (succeeded : run [source] grouping Config.defaults = .ok analysis) :
    (analysis.rows.map (·.metrics.count)).sum = (source.entryIds.length : Int) := by
  obtain ⟨analyzed, examined, items, rows⟩ := items_of_run succeeded
  have complete := (covers_of_examine examined).complete.length_eq
  rw [List.length_map] at complete
  have counts : (analysis.rows.map (·.metrics.count)).sum =
      (analysis.rows.map fun row : Row => row.metrics).sum.count := by
    have column := @Metrics.column_sum ("count", Metrics.count) List.mem_cons_self
      (analysis.rows.map fun row : Row => row.metrics)
    rw [List.map_map] at column
    exact column.symm
  rw [counts, rows, sum_aggregate, Metrics.sum_ofItem, items, ← complete]
  rfl

theorem described_of_run (loaded : Index.load source = .ok document)
    (succeeded : run [source] grouping Config.defaults = .ok analysis) :
    ∃ ordered, ordered.Perm document.items ∧
      List.Forall₂ (Census.Describes document) ordered analysis.items := by
  obtain ⟨analyzed, examined, items, _⟩ := items_of_run succeeded
  obtain ⟨sameLoaded, _, classifiedOk⟩ := examine_eq_ok_iff.mp examined
  cases loaded.symm.trans sameLoaded
  rw [items]
  exact (Index.coherent_of_load loaded).described classifiedOk

/-- The rows of a document with not too many items and generic parameters can be written. -/
theorem expressible_of_run (loaded : Index.load source = .ok document)
    (few : document.items.length < Nat.pow 10 290)
    (fewGenerics : (document.items.map (·.generics.length)).sum < Nat.pow 10 290)
    (succeeded : run [source] grouping Config.defaults = .ok analysis) :
    ∀ row ∈ analysis.rows, Report.Expressible row.metrics := by
  obtain ⟨_, _, _, rows⟩ := items_of_run succeeded
  obtain ⟨ordered, permuted, described⟩ := described_of_run loaded succeeded
  have generics : (analysis.items.map (·.genericCount)).sum ≤
      (document.items.map (·.generics.length)).sum := by
    rw [← (permuted.map _).sum_eq]
    apply List.Forall₂.sum_le_sum
    rw [List.forall₂_map_left_iff, List.forall₂_map_right_iff]
    exact List.Forall₂.flip (described.imp fun _ _ each => each.generics)
  rw [← permuted.length_eq, described.length_eq] at few
  intro row member
  rw [rows] at member
  exact expressible_of_mem_aggregate few (Nat.lt_of_le_of_lt generics fewGenerics) member

/-- Analyse a source, write the rows of the analysis as comma-separated values and read them. -/
def reread (printer : Printer) (source : Index.Source) (grouping : Grouping) :
    Except Failure (List Row) := do
  let analysis ← run [source] grouping Config.defaults
  Report.reread printer grouping .null analysis.rows

theorem reread_eq_ok_iff {printer : Printer} {restored : List Row} :
    reread printer source grouping = .ok restored ↔
      ∃ analysis, run [source] grouping Config.defaults = .ok analysis ∧
        ((∀ row ∈ analysis.rows, Report.Expressible row.metrics) ∧
          ∀ item ∈ analysis.items, ∀ text ∈ grouping.dimensionOf item,
            Csv.Legible printer.quotesReturns text) ∧
        restored = analysis.rows.map (Report.readBack grouping) := by
  unfold reread
  rw [Outcome.bind_eq_ok_iff]
  apply exists_congr
  intro analysis
  apply and_congr_right
  intro succeeded
  obtain ⟨_, _, _, rows⟩ := items_of_run succeeded
  rw [@Report.reread_eq_ok_iff _ _ .null 4 4 _ rfl rfl (by decide), ← sound_aggregate_iff, ← rows]

end Analysis

/-- Reports of an index are read back, with all entries of the index, exactly if its containers can
be ordered, the counts can be written, and no name of a module or of a crate is illegible.  Where
carriage returns are quoted, only names that are too long are.  Counts are no obstacle for an index
of any practical size. -/
theorem report_reread_iff {source : Index.Source} {document : Document}
    (loaded : Index.load source = .ok document) (printer : Printer) (grouping : Grouping) :
    ((∃ restored, Analysis.reread printer source grouping = .ok restored ∧
        (restored.map (·.metrics.count)).sum = (source.entryIds.length : Int)) ↔
      document.OrdersContainers ∧
        ∀ analysis, Analysis.run [source] grouping Config.defaults = .ok analysis →
          (∀ row ∈ analysis.rows, Report.Expressible row.metrics) ∧
            ∀ item ∈ analysis.items, ∀ text ∈ grouping.dimensionOf item,
              Csv.Legible printer.quotesReturns text) ∧
    (printer.quotesReturns = true → ∀ text,
      Csv.Legible printer.quotesReturns text ↔ text.length ≤ Csv.fieldLimit) ∧
    (document.items.length < Nat.pow 10 290 →
      (document.items.map (·.generics.length)).sum < Nat.pow 10 290 →
      ∀ analysis, Analysis.run [source] grouping Config.defaults = .ok analysis →
        ∀ row ∈ analysis.rows, Report.Expressible row.metrics) := by
  have succeeds := Config.regular_defaults.exists_run_iff loaded grouping
  refine ⟨?_, fun quotes _ => Csv.legible_iff_of_quoting quotes, ?_⟩
  · constructor
    · rintro ⟨restored, success, _⟩
      obtain ⟨analysis, succeeded, readable, _⟩ := Analysis.reread_eq_ok_iff.mp success
      refine ⟨succeeds.mp ⟨analysis, succeeded⟩, ?_⟩
      intro other otherSucceeded
      cases succeeded.symm.trans otherSucceeded
      exact readable
    · rintro ⟨ordered, readable⟩
      obtain ⟨analysis, succeeded⟩ := succeeds.mpr ordered
      refine ⟨_, Analysis.reread_eq_ok_iff.mpr
        ⟨analysis, succeeded, readable analysis succeeded, rfl⟩, ?_⟩
      rw [List.map_map]
      exact Analysis.sum_counts_of_run succeeded
  · intro few fewGenerics analysis succeeded
    exact Analysis.expressible_of_run loaded few fewGenerics succeeded

/-! ### An index with a root only -/

namespace Index

/-- The text of an index with nothing but a root, whose name is given with its escapes. -/
def rootText (escaped : String) : String :=
  "\x7b\"format_version\":30,\"root\":0,\"index\":\x7b\"0\":\x7b\"name\":\"" ++ escaped ++
    "\"\x7d\x7d\x7d"

/-- The record that such a text holds. -/
def rootRecord (name : String) : Value :=
  .ofFields [("format_version", .int 30), ("root", .int 0),
    ("index", .ofFields [("0", .ofFields [("name", .text name)])])]

/-- The entry of the root, which tells nothing but its name. -/
def rootEntry (name : String) : Entry :=
  ⟨"0", "unknown", Entry.noPayload, .ofFields [("name", .text name)]⟩

/-- The item of the root. -/
def rootItem (name : String) : Item :=
  plainItem "0" .other "unknown" (some name) [] [] Entry.noPayload

/-- The document with nothing but the root. -/
def rootDocument (name : String) : Document :=
  ⟨30, "0", name, [rootItem name], [], []⟩

section

variable (name : String)

theorem kind_rootEntry : (rootEntry name).kind = .other := by
  change ItemKind.ofTag "unknown" = .other
  decide +kernel

theorem members_rootEntry : (rootEntry name).members = .ok [] := by
  unfold Entry.members
  rw [kind_rootEntry]

theorem checkReferences_rootEntry : checkReferences [rootEntry name] [] = .ok () := by
  have noReferences : (rootEntry name).references = .ok [] := by
    unfold Entry.references Entry.reexportTarget? Entry.traitId? Entry.trait?
    simp only [members_rootEntry, kind_rootEntry]
    rfl
  have sorted : ItemId.sort ["0"] = .ok ["0"] := ItemId.sort_singleton ⟨.number 0, rfl⟩
  refine Outcome.bind_eq_ok_iff.mpr ⟨_, Outcome.liftM_integer_eq_ok_iff.mpr sorted, ?_⟩
  change (do checkEntry ["0"] (rootEntry name); .ok ()) = _
  unfold checkEntry
  simp only [noReferences]
  rfl

theorem listings_rootEntry : listings [rootEntry name] = .ok [("0", [])] := by
  simp only [listings, List.mapM_cons, members_rootEntry]
  rfl

theorem itemOf_rootEntry : itemOf "0" [("0", [])] (rootEntry name) = .ok (rootItem name) := by
  unfold itemOf item entryQualifiers Entry.reexportTarget? Entry.traitId? Entry.trait?
  simp only [members_rootEntry, kind_rootEntry]
  rfl

end

/-- A text that holds the record is loaded. -/
theorem load_rootText {escaped name : String} (named : name.isEmpty = false)
    (read : Json.read (rootText escaped) = .ok (rootRecord name)) :
    load (.text (rootText escaped)) = .ok (rootDocument name) := by
  have items : [rootEntry name].mapM (itemOf "0" [("0", [])]) = .ok [rootItem name] := by
    rw [List.mapM_cons, itemOf_rootEntry]
    rfl
  have proper : (rootItem name).properName? = some name := by
    simp [Item.properName?, rootItem, plainItem, named]
  have crate : name =
      (([rootItem name].find? (·.id == "0")).bind (·.properName?)).getD "crate" := by
    rw [List.find?_cons_of_pos rfl, Option.bind_some, proper, Option.getD_some]
  exact load_of_stages read rfl ⟨rfl, rfl, rfl, rfl, rfl, rfl, checkReferences_rootEntry name,
    listings_rootEntry name, items, crate⟩

/-- A name without escapes stands in the text as it is. -/
theorem toList_rootText (name : String) :
    (rootText name).toList =
      '\x7b' :: '"' :: ("format_version".toList ++ '"' :: ':' :: '3' :: '0' :: ',' :: '"' ::
        ("root".toList ++ '"' :: ':' :: '0' :: ',' :: '"' ::
          ("index".toList ++ '"' :: ':' :: '\x7b' :: '"' ::
            ("0".toList ++ '"' :: ':' :: '\x7b' :: '"' ::
              ("name".toList ++ '"' :: ':' :: '"' ::
                (name.toList ++ '"' :: ['\x7d', '\x7d', '\x7d'])))))) := by
  have front :
      "\x7b\"format_version\":30,\"root\":0,\"index\":\x7b\"0\":\x7b\"name\":\"".toList =
        '\x7b' :: '"' :: ("format_version".toList ++ '"' :: ':' :: '3' :: '0' :: ',' :: '"' ::
          ("root".toList ++ '"' :: ':' :: '0' :: ',' :: '"' ::
            ("index".toList ++ '"' :: ':' :: '\x7b' :: '"' ::
              ("0".toList ++ '"' :: ':' :: '\x7b' :: '"' ::
                ("name".toList ++ ['"', ':', '"']))))) := by
    decide +kernel
  have back : "\"\x7d\x7d\x7d".toList = ['"', '\x7d', '\x7d', '\x7d'] := by
    decide +kernel
  unfold rootText
  simp only [String.toList_append, front, back, List.cons_append,
    List.append_assoc, List.nil_append]

theorem read_rootText {name : String} (plain : ∀ c ∈ name.toList, Json.Plain c) :
    Json.read (rootText name) = .ok (rootRecord name) := by
  have words : ∀ word ∈ ["format_version", "root", "index", "0", "name"],
      ∀ c ∈ word.toList, Json.Plain c := by
    have all : ∀ word ∈ ["format_version", "root", "index", "0", "name"],
        word.toList.all fun c => decide (Json.Plain c) := by
      decide +kernel
    exact fun word member => Json.plain_of_all (all word member)
  simp only [List.forall_mem_cons, List.not_mem_nil, false_implies, implies_true, and_true] at words
  obtain ⟨versionWord, rootWord, indexWord, idWord, nameWord⟩ := words
  have value (fuel depth : Nat) : Json.readValue (fuel + 9) (depth + 3) (rootText name).toList =
      .ok (rootRecord name, []) := by
    -- The two inner records first: an entry is known only once its value is read to its end.
    have named := Json.readEntries_of_last [] nameWord rfl
      (Json.readValue_of_plain plain fuel depth ['\x7d', '\x7d', '\x7d'])
    have entries := Json.readEntries_of_last [] idWord rfl
      ((Json.readValue_of_record _ _ _).trans named)
    rw [toList_rootText]
    refine (Json.readValue_of_record _ _ _).trans ?_
    refine (Json.readEntries_of_next _ versionWord rfl rfl).trans ?_
    refine (Json.readEntries_of_next _ rootWord rfl rfl).trans ?_
    exact Json.readEntries_of_last _ indexWord rfl ((Json.readValue_of_record _ _ _).trans entries)
  have long : 9 ≤ 2 * (rootText name).toList.length + 1 := by
    rw [toList_rootText]
    simp only [List.length_cons, List.length_append]
    omega
  obtain ⟨fuel, enough⟩ := Nat.exists_eq_add_of_le' long
  have read := value fuel (Json.maxDepth - 3)
  rw [← enough, toList_rootText] at read
  exact Json.read_of_readValue (toList_rootText name) (by decide) rfl read

section

variable {source : Source} {name : String}

theorem ordersContainers_root (name : String) : (rootDocument name).OrdersContainers := by
  intro item member container parent
  rw [List.mem_singleton.mp member] at parent
  cases parent

theorem few_root (name : String) : (rootDocument name).items.length < Nat.pow 10 290 ∧
    ((rootDocument name).items.map (·.generics.length)).sum < Nat.pow 10 290 := by
  have positive : 0 < Nat.pow 10 290 ∧ 1 < Nat.pow 10 290 := by decide +kernel
  exact ⟨positive.2, positive.1⟩

theorem length_entryIds_root (loaded : load source = .ok (rootDocument name)) :
    source.entryIds.length = 1 := by
  rw [entryIds_of_load loaded]
  rfl

/-- The root is the only item of an analysis. -/
theorem items_of_root (loaded : load source = .ok (rootDocument name)) {grouping : Grouping}
    {analysis : Analysis}
    (succeeded : Analysis.run [source] grouping Config.defaults = .ok analysis) :
    ∃ resolution settings classified,
      ClassifySettings.ofConfig Config.defaults = .ok settings ∧
      Census.classifyItem (rootDocument name) resolution settings (rootItem name) =
        .ok classified ∧
      analysis.items = [classified] := by
  obtain ⟨analyzed, examined, items, _⟩ := Analysis.items_of_run succeeded
  obtain ⟨sameLoaded, _, classified⟩ := Analysis.examine_eq_ok_iff.mp examined
  rw [← Except.ok.inj (loaded.symm.trans sameLoaded)] at classified
  obtain ⟨ids, settings, sorted, settingsOk, each⟩ := Document.classify_eq_ok_iff.mp classified
  have alone : ids = ["0"] := List.perm_singleton.mp (ItemId.sort_perm sorted)
  subst alone
  rw [items]
  generalize analyzed.classification.items = members at each
  cases each with
  | cons first rest =>
      cases rest
      exact ⟨_, settings, _, settingsOk, first, rfl⟩

/-- Grouped by crate, the root lies in the crate of its name. -/
theorem dimensions_of_root (loaded : load source = .ok (rootDocument name)) {analysis : Analysis}
    (succeeded : Analysis.run [source] .crate Config.defaults = .ok analysis) :
    analysis.items.map (Grouping.dimensionOf .crate) = [some name] := by
  obtain ⟨_, _, classified, _, classifiedOk, items⟩ := items_of_root loaded succeeded
  have crate := (Census.describes_of_classifyItem classifiedOk).crate
  rw [items, List.map_singleton, Grouping.dimensionOf, crate]
  rfl

end

end Index

/-- A carriage return in a crate name is read back if a comma stands beside it, whatever the report
is printed with. -/
theorem quoted_report_reread : ∃ document,
    Index.load (.text (Index.rootText "a,\\rb")) = .ok document ∧
      ∀ printer, ∃ restored,
        Analysis.reread printer (.text (Index.rootText "a,\\rb")) .crate = .ok restored ∧
        (restored.map (·.metrics.count)).sum = 1 := by
  have read : Json.read (Index.rootText "a,\\rb") = .ok (Index.rootRecord "a,\rb") := by
    decide +kernel
  have loaded := Index.load_rootText rfl read
  refine ⟨_, loaded, ?_⟩
  intro printer
  obtain ⟨iff, _, expressible⟩ := report_reread_iff loaded printer .crate
  have legible : Csv.Legible printer.quotesReturns "a,\rb" := by
    cases printer.quotesReturns <;> decide
  have readable : ∀ analysis, Analysis.run [.text (Index.rootText "a,\\rb")] .crate
      Config.defaults = .ok analysis →
      (∀ row ∈ analysis.rows, Report.Expressible row.metrics) ∧
        ∀ item ∈ analysis.items, ∀ text ∈ Grouping.dimensionOf .crate item,
          Csv.Legible printer.quotesReturns text := by
    intro analysis succeeded
    have few := Index.few_root "a,\rb"
    refine ⟨expressible few.1 few.2 analysis succeeded, ?_⟩
    intro item member text inside
    have dimension : some text ∈ analysis.items.map (Grouping.dimensionOf .crate) :=
      List.mem_map.mpr ⟨item, member, inside⟩
    rw [Index.dimensions_of_root loaded succeeded, List.mem_singleton, Option.some_inj]
      at dimension
    exact dimension ▸ legible
  obtain ⟨restored, success, total⟩ := iff.mpr ⟨Index.ordersContainers_root _, readable⟩
  rw [Index.length_entryIds_root loaded] at total
  exact ⟨restored, success, total⟩

/-- A name that is one character too long for the reader. -/
def longName : String :=
  String.ofList (List.replicate (Csv.fieldLimit + 1) 'a')

/-- A report with such a crate name is written but not read back, whatever it is printed with. -/
theorem long_report_unread : ∃ document,
    Index.load (.text (Index.rootText longName)) = .ok document ∧
      ∀ printer, Analysis.reread printer (.text (Index.rootText longName)) .crate =
        .error .csv := by
  have plain : ∀ c ∈ longName.toList, Json.Plain c := by
    intro c member
    rw [longName, String.toList_ofList] at member
    rw [List.eq_of_mem_replicate member]
    decide
  have named : longName.isEmpty = false := by
    simp [longName]
  have loaded := Index.load_rootText named (Index.read_rootText plain)
  obtain ⟨analysis, succeeded⟩ := (Config.regular_defaults.exists_run_iff loaded .crate).mpr
    (Index.ordersContainers_root longName)
  obtain ⟨_, _, _, rows⟩ := Analysis.items_of_run succeeded
  have few := Index.few_root longName
  have expressible := Analysis.expressible_of_run loaded few.1 few.2 succeeded
  refine ⟨_, loaded, ?_⟩
  intro printer
  have illegible : ¬ ∀ row ∈ analysis.rows,
      Csv.Sound printer.quotesReturns (Report.keyCells .crate row) := by
    rw [rows, sound_aggregate_iff]
    intro legible
    have dimension : some longName ∈ analysis.items.map (Grouping.dimensionOf .crate) := by
      rw [Index.dimensions_of_root loaded succeeded]
      exact List.mem_cons_self
    obtain ⟨item, member, inside⟩ := List.mem_map.mp dimension
    have short := (legible item member longName inside).2
    rw [longName, String.length_ofList, List.length_replicate] at short
    exact absurd short (Nat.not_succ_le_self _)
  unfold Analysis.reread
  rw [succeeded]
  dsimp only [bind, Except.bind]
  rw [@Report.reread_of_expressible _ _ .null 4 4 _ rfl rfl (by decide) expressible,
    if_neg illegible]

end ApiCensus
