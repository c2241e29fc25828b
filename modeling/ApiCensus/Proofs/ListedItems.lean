import ApiCensus.Proofs.CommandRuns
import ApiCensus.Proofs.GroupSums
import ApiCensus.Proofs.MatchedLists

/-!
# Listings agree with rows

Listings are made document by document and then put in order; rows are made from the items of
all documents together.  Both leave out the same items, so the lines of a listing are the kept
items of the listed categories, and what they show adds up to the rows of these categories.
-/

namespace ApiCensus

theorem Category.ofName?_name (category : Category) : ofName? category.name = some category := by
  cases category <;> decide

theorem Category.name_eq_iff {category second : Category} :
    category.name = second.name ↔ category = second := by
  constructor
  · intro same
    have found := ofName?_name category
    rw [same, ofName?_name second] at found
    exact (Option.some.inj found).symm
  · intro same
    rw [same]

theorem Stability.name_eq_iff {tier other : Stability} : tier.name = other.name ↔ tier = other := by
  cases tier <;> cases other <;> decide

namespace Listing

/-- The line shows the item. -/
structure Shows (item : ClassifiedItem) (listing : Listing) : Prop where
  kind : listing.kind = item.category.name
  path : listing.path = item.path
  generics : listing.generics = item.genericCount
  stability : listing.stability = item.stability.name

theorem shows_of_ofItem {document : Document} {item : ClassifiedItem} {listing : Listing}
    (success : ofItem document item = .ok listing) : Shows item listing := by
  unfold ofItem at success
  cases found : document.item? item.id with
  | none =>
      rw [found] at success
      cases success
  | some declared =>
      rw [found] at success
      obtain ⟨signature, _, same⟩ := Outcome.bind_eq_ok_iff.mp success
      cases same
      exact ⟨rfl, rfl, rfl, rfl⟩

/-! ### Lines and items -/

/-- The lines of a category. -/
def ofKind (listings : List Listing) (category : Category) : List Listing :=
  listings.filter (·.kind = category.name)

variable {items : List ClassifiedItem} {lines listings : List Listing}

theorem shows_ofKind (shown : List.Forall₂ Shows items lines) (category : Category) :
    List.Forall₂ Shows (items.filter (·.category = category)) (ofKind lines category) := by
  induction shown with
  | nil => exact .nil
  | @cons item listing items lines first _ induction =>
      have same : listing.kind = category.name ↔ item.category = category := by
        rw [first.kind, Category.name_eq_iff]
      unfold ofKind at induction ⊢
      rw [List.filter_cons, List.filter_cons]
      by_cases chosen : item.category = category
      · simp only [same, chosen, decide_true, if_true]
        exact .cons first induction
      · simp only [same, chosen, decide_false, Bool.false_eq_true, if_false]
        exact induction

theorem sum_generics_of_shows (shown : List.Forall₂ Shows items lines) :
    (lines.map (·.generics)).sum = (Metrics.amount items).generics := by
  induction shown with
  | nil => rfl
  | cons first _ induction =>
      simp only [Metrics.amount, List.map_cons, List.sum_cons] at induction ⊢
      rw [first.generics, induction]

theorem countP_stability_of_shows (shown : List.Forall₂ Shows items lines) (tier : Stability) :
    lines.countP (·.stability = tier.name) = items.countP (·.stability = tier) := by
  induction shown with
  | nil => rfl
  | cons first _ induction =>
      rw [List.countP_cons, List.countP_cons, induction]
      simp only [first.stability, Stability.name_eq_iff]

/-! ### Order -/

/-- The place of a line: by kind, path and declaration. -/
def rank (listing : Listing) : String ×ₗ String ×ₗ String :=
  toLex (listing.kind, toLex (listing.path, listing.signature))

theorem le_iff (left right : Listing) : le left right = true ↔ left.rank ≤ right.rank := by
  simp only [le, rank, keyLe_iff, Prod.Lex.toLex_le_toLex, Bool.or_eq_true, Bool.and_eq_true,
    decide_eq_true_eq, beq_iff_eq]

theorem pairwise_sort (lines : List Listing) :
    (sort lines).Pairwise fun left right => left.rank ≤ right.rank :=
  pairwise_mergeSort_of_rank rank le_iff lines

/-- Lines that are told apart by their places have one order. -/
theorem sort_eq_of_perm {sorted : List Listing} (permuted : lines.Perm sorted)
    (ordered : sorted.Pairwise fun left right => le left right = true)
    (distinct : ∀ left ∈ sorted, ∀ right ∈ sorted,
      le left right = true → le right left = true → left = right) : sort lines = sorted := by
  have rearranged : (sort lines).Perm sorted := (List.mergeSort_perm _ _).trans permuted
  refine rearranged.eq_of_pairwise ?_
    ((pairwise_sort lines).imp fun {left right} => (le_iff left right).mpr) ordered
  intro left right leftMember rightMember
  exact distinct left (rearranged.mem_iff.mp leftMember) right rightMember

/-! ### Documents -/

theorem exists_lines_of_ofDocument {document : Document} {classification : Classification}
    {excluded : Value} (success : ofDocument document classification excluded = .ok listings) :
    ∃ lines, listings.Perm lines ∧ List.Forall₂ Shows
      ((classification.items.filter (!excludes excluded ·)).filter (isListed ·.category))
      lines := by
  obtain ⟨⟨kept, count⟩, filtered, rest⟩ := Outcome.bind_eq_ok_iff.mp success
  obtain ⟨lines, linesOk, same⟩ := Outcome.bind_eq_ok_iff.mp rest
  obtain ⟨_, isKept, _⟩ := filterExcluded_eq_ok_iff.mp filtered
  subst isKept
  cases same
  refine ⟨lines, List.mergeSort_perm _ _, ?_⟩
  exact (Outcome.mapM_eq_ok_iff.mp linesOk).imp fun _ _ => shows_of_ofItem

/-- The lines of all documents show the listed ones among the kept items of all documents. -/
theorem exists_lines_of_documents {documents : List AnalyzedDocument} {excluded : Value}
    {parts : List (List Listing)}
    (each : List.Forall₂ (fun analyzed part =>
      ofDocument analyzed.document analyzed.classification excluded = .ok part)
      documents parts) :
    ∃ lines, parts.flatten.Perm lines ∧ List.Forall₂ Shows
      (((Analysis.classified documents).filter (!excludes excluded ·)).filter
        (isListed ·.category)) lines := by
  induction each with
  | nil => exact ⟨[], .nil, .nil⟩
  | cons first _ induction =>
      obtain ⟨lines, permuted, shown⟩ := exists_lines_of_ofDocument first
      obtain ⟨others, othersPermuted, othersShown⟩ := induction
      refine ⟨lines ++ others, permuted.append othersPermuted, ?_⟩
      rw [Analysis.classified_cons, List.filter_append, List.filter_append]
      exact List.rel_append shown othersShown

end Listing

/-! ### Rows of categories -/

namespace Row

/-- The metrics of the row of a category; zero where there is no such row. -/
def metricsOf (rows : List Row) (category : Category) : Metrics :=
  ((rows.find? (·.category = category.name)).map (·.metrics)).getD {}

end Row

theorem nodup_categories (items : List ClassifiedItem) :
    ((aggregate .category items).map (·.category)).Nodup := by
  have distinct := (aggregate_merges .category items).distinct
  rw [List.map_map] at distinct
  have groups : (aggregate .category items).map ((·.1) ∘ Row.entry) =
      ((aggregate .category items).map (·.category)).map fun name => (name, none) := by
    rw [List.map_map]
    exact List.map_congr_left fun row member => group_of_mem_aggregate member
  rw [groups] at distinct
  exact distinct.of_map

theorem amountUnder_category (items : List ClassifiedItem) (category : Category) :
    amountUnder (items.map (Grouping.entry .category)) (category.name, none) =
      Metrics.amount (items.filter (·.category = category)) := by
  rw [amountUnder_entries]
  congr 1
  apply List.filter_congr
  intro item _
  simp [Grouping.key, Grouping.dimensionOf, Category.name_eq_iff]

/-- The row of a category has what the items of the category amount to. -/
theorem metricsOf_aggregate (items : List ClassifiedItem) (category : Category) :
    Row.metricsOf (aggregate .category items) category =
      Metrics.amount (items.filter (·.category = category)) := by
  have merges := aggregate_merges .category items
  rw [← amountUnder_category, ← merges.amounts, Row.metricsOf]
  cases found : (aggregate .category items).find? (·.category = category.name) with
  | some row =>
      have member := List.mem_of_find?_eq_some found
      have named : row.category = category.name := by simpa using List.find?_some found
      have group := group_of_mem_aggregate member
      rw [named] at group
      have amount := amountUnder_of_mem merges.distinct (List.mem_map_of_mem member)
      rw [Row.entry, group] at amount
      exact amount.symm
  | none =>
      rw [amountUnder_of_not_mem]
      · rfl
      · intro inside
        rw [List.map_map] at inside
        obtain ⟨row, member, same⟩ := List.mem_map.mp inside
        have absent := List.find?_eq_none.mp found row member
        have named : row.category = category.name := congrArg Prod.fst same
        exact absent (by simp [named])

/-! ### Agreement -/

/-- For each listed category the lines add up to its row; there are no other lines, and the
lines are in the order of kind, path and declaration. -/
structure Listing.Agrees (rows : List Row) (listings : List Listing) : Prop where
  distinct : (rows.map (·.category)).Nodup
  count : ∀ category, isListed category = true →
    (ofKind listings category).length = (Row.metricsOf rows category).count
  generics : ∀ category, isListed category = true →
    ((ofKind listings category).map (·.generics)).sum = (Row.metricsOf rows category).generics
  deprecated : ∀ category, isListed category = true →
    (ofKind listings category).countP (·.stability = "deprecated") =
      (Row.metricsOf rows category).deprecated
  unstable : ∀ category, isListed category = true →
    (ofKind listings category).countP (·.stability = "unstable") =
      (Row.metricsOf rows category).unstable
  kinds : ∀ listing ∈ listings, ∃ category, isListed category = true ∧
    listing.kind = category.name
  sorted : listings.Pairwise fun left right => left.rank ≤ right.rank

/-- The lines of a listed category show all items of the category. -/
theorem Listing.shows_of_listed {items : List ClassifiedItem} {lines : List Listing}
    (shown : List.Forall₂ Shows (items.filter (isListed ·.category)) lines) {category : Category}
    (listed : isListed category = true) :
    List.Forall₂ Shows (items.filter (·.category = category)) (ofKind lines category) := by
  have same : (items.filter (isListed ·.category)).filter (·.category = category) =
      items.filter (·.category = category) := by
    rw [List.filter_filter]
    apply List.filter_congr
    intro item _
    by_cases chosen : item.category = category
    · simp [chosen, listed]
    · simp [chosen]
  rw [← same]
  exact shows_ofKind shown category

theorem Listing.agrees_of_shows {items : List ClassifiedItem} {lines listings : List Listing}
    (shown : List.Forall₂ Shows (items.filter (isListed ·.category)) lines)
    (permuted : listings.Perm lines)
    (sorted : listings.Pairwise fun left right => left.rank ≤ right.rank) :
    Agrees (aggregate .category items) listings := by
  have moved : ∀ category, (ofKind listings category).Perm (ofKind lines category) :=
    fun category => permuted.filter _
  refine ⟨nodup_categories items, ?_, ?_, ?_, ?_, ?_, sorted⟩
  · intro category listed
    rw [metricsOf_aggregate, (moved category).length_eq, ← (shows_of_listed shown listed).length_eq]
    rfl
  · intro category listed
    rw [metricsOf_aggregate, ((moved category).map _).sum_eq]
    exact sum_generics_of_shows (shows_of_listed shown listed)
  · intro category listed
    rw [metricsOf_aggregate, (moved category).countP_eq]
    exact congrArg Nat.cast (countP_stability_of_shows (shows_of_listed shown listed) .deprecated)
  · intro category listed
    rw [metricsOf_aggregate, (moved category).countP_eq]
    exact congrArg Nat.cast (countP_stability_of_shows (shows_of_listed shown listed) .unstable)
  · intro listing member
    obtain ⟨item, inside, shows⟩ :=
      (Matched.of_forall₂ shown).2 listing (permuted.mem_iff.mp member)
    exact ⟨item.category, (List.mem_filter.mp inside).2, shows.kind⟩

theorem Analysis.agrees_of_run {sources : List Index.Source} {config : Value}
    {analysis : Analysis} {listings : List Listing}
    (analysisOk : run sources .category config = .ok analysis)
    (listingsOk : analysis.listings config = .ok listings) :
    Listing.Agrees analysis.rows listings := by
  obtain ⟨documents, excluded, _, excludedOk, _, same⟩ := run_eq_ok_iff.mp analysisOk
  subst same
  obtain ⟨found, foundOk, rest⟩ := Outcome.bind_eq_ok_iff.mp listingsOk
  cases excludedOk.symm.trans (Outcome.liftM_shape_eq_ok_iff.mp foundOk)
  obtain ⟨parts, partsOk, same⟩ := Outcome.bind_eq_ok_iff.mp rest
  cases same
  obtain ⟨lines, permuted, shown⟩ := Listing.exists_lines_of_documents
    ((Outcome.mapM_eq_ok_iff.mp partsOk).imp fun _ _ => Outcome.liftM_shape_eq_ok_iff.mp)
  exact Listing.agrees_of_shows shown ((List.mergeSort_perm _ _).trans permuted)
    (Listing.pairwise_sort _)

/-- A listing agrees with the rows by category that are made from the same sources, and so
does every listing that a run of the command line delivers. -/
theorem listing_agrees_with_rows :
    (∀ (sources : List Index.Source) (config : Value) (analysis : Analysis)
        (listings : List Listing), Analysis.run sources .category config = .ok analysis →
      analysis.listings config = .ok listings → Listing.Agrees analysis.rows listings) ∧
    ∀ (request : CommandLine.Request) (host : CommandLine.Host) (files : host.disk.State)
        (presentation : Presentation), request.task = .listing presentation →
      (request.run host files).ending = .exit 0 →
      ∃ config contents analysis listings text,
        Config.load host.settings host.disk files request.config = .ok config ∧
        List.Forall₂ (fun path content => host.disk.read files path = .ok content)
          request.inputs contents ∧
        Analysis.run (contents.map .bytes) .category config = .ok analysis ∧
        analysis.listings config = .ok listings ∧
        Listing.emit host.printer presentation config listings = .ok text ∧
        request.Delivers host files text (request.run host files) ∧
        Listing.Agrees analysis.rows listings := by
  refine ⟨fun _ _ _ _ => Analysis.agrees_of_run, ?_⟩
  intro request host files presentation isListing exit
  obtain ⟨config, contents, text, composes, delivers⟩ :=
    CommandLine.Request.exists_composes_of_exit exit
  have rendered := composes.rendered
  rw [isListing] at rendered
  cases rendered with
  | listing analysisOk listingsOk emitted =>
      exact ⟨config, contents, _, _, text, composes.configOk, composes.inputsOk, analysisOk,
        listingsOk, emitted, delivers, Analysis.agrees_of_run analysisOk listingsOk⟩

/-! ### A struct and a deprecated enum -/

namespace Index

/-- An index with a struct and a deprecated enum. -/
def declaredText : String :=
  "\x7b\"format_version\":30,\"root\":0,\"index\":\x7b\"0\":\x7b\"kind\":\"struct\"\x7d," ++
    "\"1\":\x7b\"parent\":0,\"kind\":\"enum\",\"deprecation\":\x7b\x7d\x7d\x7d\x7d"

/-- The record that the text of this index holds. -/
def declaredRecord : Value :=
  .ofFields [("format_version", .int 30), ("root", .int 0),
    ("index", .ofFields [("0", .ofFields [("kind", .text "struct")]),
      ("1", .ofFields [("parent", .int 0), ("kind", .text "enum"),
        ("deprecation", .record [])])])]

/-- The struct, which is the root. -/
def declaredStruct : Item :=
  plainItem "0" .struct "struct" none [] [] (.record [])

/-- The enum below it. -/
def declaredEnum : Item :=
  { plainItem "1" .enum "enum" none ["0"] [] (.record []) with deprecation := some ⟨none, none⟩ }

/-- The document of this index. -/
def declared : Document where
  formatVersion := 30
  root := "0"
  crateName := "crate"
  items := [declaredStruct, declaredEnum]
  paths := []
  externalCrates := []

theorem sort_declared : ItemId.sort ["0", "1"] = .ok ["0", "1"] :=
  @ItemId.sort_eq_self _ [(.number 0, "0"), (.number 1, "1")] rfl (by decide)

theorem load_declared : load (.text declaredText) = .ok declared := by
  have read : Json.read declaredText = .ok declaredRecord := by decide +kernel
  refine load_of_stages read rfl ⟨rfl, rfl, rfl, rfl, rfl, rfl, ?_, rfl, rfl, rfl⟩
  exact Outcome.bind_eq_ok_iff.mpr ⟨_, Outcome.liftM_integer_eq_ok_iff.mpr sort_declared, rfl⟩

/-- The paths of the two items. -/
def declaredPaths : Resolution where
  paths := [("0", { segments := ["<struct>"] }),
    ("1", { segments := ["<enum>"], parent := some "0" })]
  reports := []
  separator := "::"

open Resolver in
theorem resolve_declared : declared.resolve Config.defaults = .ok declaredPaths := by
  have ids : declared.sortedIds = .ok ["0", "1"] := sort_declared
  have first : settle declared "::" {} declaredStruct = .ok ⟨[], none, none⟩ := rfl
  have second : settle declared "::" (place {} "0" ⟨[], none, none⟩) declaredEnum =
      .ok ⟨[], some "0", none⟩ := rfl
  have ran : (resolveAll declared "::").run {} = (.ok declaredPaths.paths,
      (place {} "0" ⟨[], none, none⟩).place "1" ⟨[], some "0", none⟩) := by
    rw [run_resolveAll, ids]
    exact run_resolveList_of_ready rfl rfl rfl first rfl
      (run_resolveList_of_ready rfl rfl rfl second rfl rfl)
  exact (Document.resolve_eq_ok_iff rfl).mpr ⟨_, ran, rfl⟩

/-- The line of the struct. -/
def structLine : Listing where
  kind := "Struct"
  path := "<struct>"
  signature := "struct  \x7b .. \x7d"
  generics := 0
  stability := "stable"
  methods := 0

/-- The line of the enum. -/
def enumLine : Listing where
  kind := "Enum"
  path := "<enum>"
  signature := "enum  \x7b .. \x7d"
  generics := 0
  stability := "deprecated"
  methods := 0

theorem examine_declared : ∃ analyzed,
    Analysis.examine Config.defaults (.text declaredText) = .ok analyzed ∧
    Listing.ofDocument analyzed.document analyzed.classification (.list []) =
      .ok [enumLine, structLine] := by
  obtain ⟨settings, settingsOk⟩ : ∃ settings,
      ClassifySettings.ofConfig Config.defaults = .ok settings := ⟨_, rfl⟩
  obtain ⟨first, firstOk, firstListed, firstLine⟩ : ∃ first,
      Census.classifyItem declared declaredPaths settings declaredStruct = .ok first ∧
        Listing.isListed first.category = true ∧
        Listing.ofItem declared first = .ok structLine := by
    cases settingsOk
    exact ⟨_, rfl, rfl, rfl⟩
  obtain ⟨second, secondOk, secondListed, secondLine⟩ : ∃ second,
      Census.classifyItem declared declaredPaths settings declaredEnum = .ok second ∧
        Listing.isListed second.category = true ∧
        Listing.ofItem declared second = .ok enumLine := by
    cases settingsOk
    exact ⟨_, rfl, rfl, rfl⟩
  have sorted : Listing.sort [structLine, enumLine] = [enumLine, structLine] :=
    Listing.sort_eq_of_perm (by decide) (by decide) (by decide)
  refine ⟨⟨declared, declaredPaths, ⟨[first, second]⟩⟩, Analysis.examine_eq_ok_iff.mpr
    ⟨load_declared, resolve_declared, Document.classify_eq_ok_iff.mpr ⟨_, settings, sort_declared,
      settingsOk, .cons firstOk (.cons secondOk .nil)⟩⟩, ?_⟩
  refine Outcome.bind_eq_ok_iff.mpr ⟨([first, second], 0), rfl, ?_⟩
  have listed : [first, second].filter (Listing.isListed ·.category) = [first, second] := by
    simp [firstListed, secondListed]
  refine Outcome.bind_eq_ok_iff.mpr ⟨[structLine, enumLine], ?_, congrArg Except.ok sorted⟩
  rw [listed]
  exact Outcome.mapM_eq_ok_iff.mpr (.cons firstLine (.cons secondLine .nil))

end Index

theorem declared_listing_agrees_with_rows : ∃ analysis,
    Analysis.run [.text Index.declaredText, .text Index.declaredText] .category
      Config.defaults = .ok analysis ∧
    analysis.listings Config.defaults =
      .ok [Index.enumLine, Index.enumLine, Index.structLine, Index.structLine] ∧
    Listing.Agrees analysis.rows
      [Index.enumLine, Index.enumLine, Index.structLine, Index.structLine] := by
  obtain ⟨analyzed, examined, lines⟩ := Index.examine_declared
  have analysisOk := (@Analysis.run_eq_ok_iff _ .category Config.defaults _).mpr
    ⟨_, .list [], .cons examined (.cons examined .nil), rfl, fun _ _ => ⟨false, rfl⟩, rfl⟩
  have each := Outcome.liftM_shape_eq_ok_iff.mpr lines
  have sorted : Listing.sort [Index.enumLine, Index.structLine, Index.enumLine, Index.structLine] =
      [Index.enumLine, Index.enumLine, Index.structLine, Index.structLine] :=
    Listing.sort_eq_of_perm (by decide) (by decide) (by decide)
  have listingsOk : (Analysis.gathered [analyzed, analyzed] .category (.list [])).listings
      Config.defaults =
        .ok [Index.enumLine, Index.enumLine, Index.structLine, Index.structLine] :=
    Outcome.bind_eq_ok_iff.mpr ⟨.list [], rfl, Outcome.bind_eq_ok_iff.mpr
      ⟨_, Outcome.mapM_eq_ok_iff.mpr (.cons each (.cons each .nil)), congrArg Except.ok sorted⟩⟩
  exact ⟨_, analysisOk, listingsOk, listing_agrees_with_rows.1 _ _ _ _ analysisOk listingsOk⟩

end ApiCensus
