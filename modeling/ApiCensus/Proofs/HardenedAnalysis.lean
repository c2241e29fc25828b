import ApiCensus.Proofs.AnalysisStages
import ApiCensus.Proofs.MergedSettings

/-!
# Updates of a configuration only add

A user's configuration is laid over the default one.  Markers and excluded paths accumulate, so
an item that was unstable stays unstable, an item that was left out stays left out, and which
items are deprecated does not depend on the configuration at all.  The paths of items stay the
same as long as the separator does.
-/

namespace ApiCensus

/-! ### Tiers under more markers -/

namespace Stability

variable {document : Document} {markers others : List String}

theorem tier_eq_deprecated_iff (markers : List String) (item : Item) :
    tier markers item = .deprecated ↔ item.deprecation.isSome = true := by
  unfold tier
  split
  · simp [*]
  · split <;> simp [*]

theorem tier_eq_unstable_iff (markers : List String) (item : Item) :
    tier markers item = .unstable ↔ item.deprecation.isSome = false ∧
      ∃ attr ∈ item.attrs, ∃ marker ∈ markers, Text.contains attr marker = true := by
  unfold tier
  split
  · simp [*]
  · split <;> simp_all

theorem tier_unstable_mono (more : markers ⊆ others) {item : Item}
    (unstable : tier markers item = .unstable) : tier others item = .unstable := by
  obtain ⟨undeprecated, attr, attrMember, marker, markerMember, contained⟩ :=
    (tier_eq_unstable_iff markers item).mp unstable
  apply (tier_eq_unstable_iff others item).mpr
  exact ⟨undeprecated, attr, attrMember, marker, more markerMember, contained⟩

theorem tierIn_eq_deprecated_iff (document : Document) (markers : List String) (item : Item) :
    tierIn document markers item = .deprecated ↔ item.deprecation.isSome = true := by
  unfold tierIn
  split
  · rename_i inherited
    have undeprecated := mt (tier_eq_deprecated_iff markers item).mpr
    simp [inherited.1] at undeprecated
    simp [undeprecated]
  · exact tier_eq_deprecated_iff markers item

theorem tierIn_unstable_mono (more : markers ⊆ others) {item : Item}
    (unstable : tierIn document markers item = .unstable) :
    tierIn document others item = .unstable := by
  unfold tierIn at unstable ⊢
  split at unstable
  · rename_i inherited
    obtain ⟨stable, block, fromTrait⟩ := inherited
    have inherits :
        (implementedTrait? document item).any (tier others · = .unstable) = true := by
      cases found : implementedTrait? document item with
      | none => simp [found] at fromTrait
      | some trait =>
          simp only [found, Option.any_some, decide_eq_true_eq] at fromTrait ⊢
          exact tier_unstable_mono more fromTrait
    -- Under more markers the block may be unstable by itself, but it is never deprecated.
    cases own : tier others item with
    | stable => simp [block, inherits]
    | unstable => simp
    | deprecated =>
        rw [(tier_eq_deprecated_iff others item),
          ← tier_eq_deprecated_iff markers item, stable] at own
        cases own
  · have own := tier_unstable_mono more unstable
    simp [own]

end Stability

/-! ### Settings -/

namespace Config

variable {config : Value} {starts markers : List String}

theorem pathSeparator_congr {other : Value} (isRecord : config.isRecord = true)
    (otherRecord : other.isRecord = true)
    (same : other.get? "path_separator" = config.get? "path_separator") :
    pathSeparator other = pathSeparator config := by
  have sameGet : other.get "path_separator" = config.get "path_separator" := by
    rw [Value.get, same, Value.get]
  unfold pathSeparator
  rw [Value.orElse_empty isRecord, Value.orElse_empty otherRecord,
    Value.asRecord_of_isRecord isRecord, Value.asRecord_of_isRecord otherRecord]
  simp only [bind, Except.bind, sameGet]

theorem Lists.isRecord (lists : Lists config starts markers) : config.isRecord = true :=
  Value.isRecord_of_get? lists.excluded

theorem Lists.settings (lists : Lists config starts markers) :
    ClassifySettings.ofConfig config =
      .ok ⟨.list (markers.map .text), (config.get "generics").orElse (.record [])⟩ := by
  have inner := Value.isRecord_of_get? lists.marked
  unfold ClassifySettings.ofConfig
  rw [Value.orElse_empty lists.isRecord, Value.asRecord_of_isRecord lists.isRecord]
  simp only [bind, Except.bind, Value.orElse_empty inner, Value.asRecord_of_isRecord inner,
    lists.marked]
  rfl

theorem Lists.excludedPaths (lists : Lists config starts markers) :
    Analysis.excludedPaths config = .ok (.list (starts.map .text)) := by
  unfold Analysis.excludedPaths
  rw [Value.asRecord_of_isRecord lists.isRecord]
  simp only [bind, Except.bind, Value.get_of_get? lists.excluded]
  cases starts <;> rfl

end Config

/-! ### Items -/

/-- The item is classified more strictly: at most it has become unstable, and its generic
parameters may be counted in another way. -/
structure ClassifiedItem.Hardened (mild strict : ClassifiedItem) : Prop where
  same : strict = { mild with stability := strict.stability, genericCount := strict.genericCount }
  unstable : mild.stability = .unstable → strict.stability = .unstable
  deprecated : strict.stability = .deprecated ↔ mild.stability = .deprecated

theorem ClassifiedItem.Hardened.path {mild strict : ClassifiedItem}
    (hardened : Hardened mild strict) : strict.path = mild.path := by
  rw [hardened.same]

theorem Census.hardened_of_classifyItem {document : Document} {resolution : Resolution}
    {markers others : List String} {generics otherGenerics : Value} (more : markers ⊆ others)
    {item : Item} {mild strict : ClassifiedItem}
    (mildOk : classifyItem document resolution ⟨.list (markers.map .text), generics⟩ item =
      .ok mild)
    (strictOk : classifyItem document resolution ⟨.list (others.map .text), otherGenerics⟩ item =
      .ok strict) : mild.Hardened strict := by
  unfold classifyItem at mildOk strictOk
  obtain ⟨tier, tierOk, mildOk⟩ := Outcome.bind_eq_ok_iff.mp mildOk
  obtain ⟨otherTier, otherTierOk, strictOk⟩ := Outcome.bind_eq_ok_iff.mp strictOk
  obtain ⟨_, _, mildOk⟩ := Outcome.bind_eq_ok_iff.mp mildOk
  obtain ⟨_, _, strictOk⟩ := Outcome.bind_eq_ok_iff.mp strictOk
  dsimp only at tierOk otherTierOk
  rw [Stability.ofItem_texts] at tierOk otherTierOk
  cases mildOk
  cases strictOk
  cases tierOk
  cases otherTierOk
  constructor
  · dsimp only
  · exact Stability.tierIn_unstable_mono more
  · dsimp only
    rw [Stability.tierIn_eq_deprecated_iff, Stability.tierIn_eq_deprecated_iff]

namespace Config.Lists

variable {base merged : Value} {starts markers moreStarts moreMarkers : List String}

theorem hardened_of_classify (lists : Lists base starts markers)
    (mergedLists : Lists merged moreStarts moreMarkers) (more : markers ⊆ moreMarkers)
    {document : Document} {resolution : Resolution} {mild strict : Classification}
    (mildOk : document.classify resolution base = .ok mild)
    (strictOk : document.classify resolution merged = .ok strict) :
    List.Forall₂ ClassifiedItem.Hardened mild.items strict.items := by
  obtain ⟨ids, _, sorted, settings, itemsOk⟩ := Document.classify_eq_ok_iff.mp mildOk
  obtain ⟨_, _, otherSorted, otherSettings, otherItemsOk⟩ :=
    Document.classify_eq_ok_iff.mp strictOk
  cases sorted.symm.trans otherSorted
  cases lists.settings.symm.trans settings
  cases mergedLists.settings.symm.trans otherSettings
  apply Outcome.forall₂_of_mapM (Outcome.mapM_eq_ok_iff.mpr itemsOk)
    (Outcome.mapM_eq_ok_iff.mpr otherItemsOk)
  intro item _ classified otherClassified classifiedOk otherOk
  exact Census.hardened_of_classifyItem more classifiedOk otherOk

theorem hardened_of_analyze (lists : Lists base starts markers)
    (mergedLists : Lists merged moreStarts moreMarkers) (more : markers ⊆ moreMarkers)
    (same : merged.get? "path_separator" = base.get? "path_separator")
    {document : Document} {mild strict : AnalyzedDocument}
    (mildOk : document.analyze base = .ok mild) (strictOk : document.analyze merged = .ok strict) :
    List.Forall₂ ClassifiedItem.Hardened mild.classification.items
      strict.classification.items := by
  have resolves : document.resolve merged = document.resolve base := by
    unfold Document.resolve
    rw [pathSeparator_congr lists.isRecord mergedLists.isRecord same]
  obtain ⟨resolution, resolved, mildOk⟩ := Outcome.bind_eq_ok_iff.mp mildOk
  obtain ⟨otherResolution, otherResolved, strictOk⟩ := Outcome.bind_eq_ok_iff.mp strictOk
  cases resolved.symm.trans (resolves.symm.trans otherResolved)
  obtain ⟨classification, classifiedOk, mildOk⟩ := Outcome.bind_eq_ok_iff.mp mildOk
  obtain ⟨otherClassification, otherClassifiedOk, strictOk⟩ := Outcome.bind_eq_ok_iff.mp strictOk
  cases mildOk
  cases strictOk
  exact lists.hardened_of_classify mergedLists more classifiedOk otherClassifiedOk

end Config.Lists

/-! ### Kept items -/

/-- An item that some excluded path starts is left out under more excluded paths too. -/
theorem excludes_mono {starts moreStarts : List String} (more : starts ⊆ moreStarts)
    {mild strict : ClassifiedItem} (hardened : mild.Hardened strict)
    (excluded : excludes (.list (starts.map .text)) mild = true) :
    excludes (.list (moreStarts.map .text)) strict = true := by
  simp only [excludes, isExcluded_texts, Except.toOption, Option.getD_some, List.any_eq_true,
    hardened.path] at excluded ⊢
  obtain ⟨start, member, starting⟩ := excluded
  exact ⟨start, more member, starting⟩

theorem exists_kept_of_hardened {dropsMild dropsStrict : ClassifiedItem → Bool}
    (drops : ∀ mild strict : ClassifiedItem, mild.Hardened strict → dropsMild mild = true →
      dropsStrict strict = true)
    {milds stricts : List ClassifiedItem}
    (hardened : List.Forall₂ ClassifiedItem.Hardened milds stricts) :
    (∃ kept, kept.Sublist (milds.filter (!dropsMild ·)) ∧
        List.Forall₂ ClassifiedItem.Hardened kept (stricts.filter (!dropsStrict ·))) ∧
      milds.countP dropsMild ≤ stricts.countP dropsStrict := by
  induction hardened with
  | nil => exact ⟨⟨[], .slnil, .nil⟩, Nat.le_refl 0⟩
  | @cons mild strict milds stricts first _ induction =>
      obtain ⟨⟨kept, within, rest⟩, counts⟩ := induction
      have atFirst := drops mild strict first
      rw [List.countP_cons, List.countP_cons, List.filter_cons, List.filter_cons]
      cases mildDropped : dropsMild mild with
      | true =>
          rw [atFirst mildDropped]
          refine ⟨⟨kept, within, rest⟩, ?_⟩
          simpa using counts
      | false =>
          cases strictDropped : dropsStrict strict with
          | true =>
              refine ⟨⟨kept, within.cons mild, rest⟩, ?_⟩
              simp only [Bool.false_eq_true, if_false, if_true]
              omega
          | false =>
              refine ⟨⟨mild :: kept, within.cons_cons mild, .cons first rest⟩, ?_⟩
              simpa using counts

/-! ### A stricter configuration -/

namespace Config

/-- One more excluded path and one more marker. -/
def strictUpdate : List (Scalar × Value) :=
  [(.text "exclude_paths", .list [.text "crate::<unknown>"]),
    (.text "stability", .ofFields [("unstable_markers", .list [.text "#[unstable_"])])]

/-- The default configuration with the stricter update. -/
def strict : Value :=
  .ofFields [
    ("path_separator", .text "::"),
    ("exclude_paths", .list [.text "crate::<unknown>"]),
    ("stability",
      .ofFields [("unstable_markers", .list [.text "#[unstable", .text "#[unstable_"])]),
    ("generics", .ofFields [("count_lifetimes", .bool false), ("count_synthetic", .bool false)]),
    ("output", .ofFields [("table_format", .text "simple"), ("ratio_precision", .int 4)])]

theorem union_of_sorted {left right : List Value} {members : List Scalar}
    (read : scalars (left ++ right) = .ok members) (once : distinct members = members)
    (sortable : isSortable members = true)
    (sorted : members.Pairwise fun one other => scalarLe one other = true) :
    union left right = .ok (members.map .scalar) := by
  unfold union
  rw [read]
  simp only [bind, Except.bind, once, sortable, if_true, List.mergeSort_of_pairwise sorted]
  rfl

theorem mergeValue_lists {name : String} (additive : isAdditive (.text name) = true)
    {base update united : List Value} (unitedOk : union base update = .ok united) :
    mergeValue (.text name) (some (.list base)) (.list update) = .ok (.list united) := by
  rw [mergeValue, if_pos additive, unitedOk]
  rfl

theorem mergeEntries_cons {key : Scalar} {value merged : Value}
    {base rest : List (Scalar × Value)}
    (mergedOk : mergeValue key (Value.find? key base) value = .ok merged) :
    mergeEntries base ((key, value) :: rest) = mergeEntries (Value.put key merged base) rest := by
  rw [mergeEntries, mergedOk]
  rfl

theorem merge_strictUpdate : merge defaults (.record strictUpdate) = .ok strict := by
  have paths : union [] [.text "crate::<unknown>"] = .ok [.text "crate::<unknown>"] :=
    union_of_sorted rfl rfl rfl (List.pairwise_singleton _ _)
  have markers : union [.text "#[unstable"] [.text "#[unstable_"] =
      .ok [.text "#[unstable", .text "#[unstable_"] :=
    @union_of_sorted _ _ [.text "#[unstable", .text "#[unstable_"] rfl rfl rfl (by decide)
  have stability : mergeValue (.text "stability")
      (some (.record [(.text "unstable_markers", .list [.text "#[unstable"])]))
      (.record [(.text "unstable_markers", .list [.text "#[unstable_"])]) =
      .ok (.record [(.text "unstable_markers",
        .list [.text "#[unstable", .text "#[unstable_"])]) := by
    rw [mergeValue, mergeEntries_cons (mergeValue_lists rfl markers)]
    simp only [mergeEntries]
    rfl
  unfold merge defaults strictUpdate
  dsimp only [Value.ofFields, List.map]
  rw [mergeEntries_cons (mergeValue_lists rfl paths), mergeEntries_cons stability]
  simp only [mergeEntries]
  rfl

theorem regular_strict : Regular strict where
  separator := ⟨"::", rfl⟩
  settings := ⟨["#[unstable", "#[unstable_"], _, rfl⟩
  excluded := ⟨["crate::<unknown>"], rfl⟩

theorem lists_defaults : Lists defaults [] ["#[unstable"] := ⟨rfl, rfl⟩

theorem adds_strictUpdate : Adds strictUpdate where
  separator := by simp [strictUpdate]
  excluded := by
    intro part member
    simp [strictUpdate] at member
    exact ⟨["crate::<unknown>"], member⟩
  stability := by
    intro part member
    simp [strictUpdate] at member
    refine ⟨_, member, fun inner innerMember => ?_⟩
    simp at innerMember
    exact ⟨["#[unstable_"], innerMember⟩

end Config

/-! ### Analyses -/

namespace Analysis

theorem hardened_classified {milds stricts : List AnalyzedDocument}
    (each : List.Forall₂ (fun mild strict : AnalyzedDocument =>
      List.Forall₂ ClassifiedItem.Hardened mild.classification.items
        strict.classification.items) milds stricts) :
    List.Forall₂ ClassifiedItem.Hardened (classified milds) (classified stricts) := by
  induction each with
  | nil => exact .nil
  | cons first _ induction =>
      rw [classified_cons, classified_cons]
      exact List.rel_append first induction

/-- Documents are analysed under a configuration and under an update of it that adds.  Every
item is found again with at most its tier hardened, the items that are still kept were kept
before, and none fewer are left out. -/
theorem update_only_adds {documents : List Document} {base merged : Value}
    {update : List (Scalar × Value)} {starts markers : List String}
    {milds stricts : List AnalyzedDocument} {grouping otherGrouping : Grouping}
    {before after : Analysis} (lists : Config.Lists base starts markers)
    (adds : Config.Adds update) (mergedOk : Config.merge base (.record update) = .ok merged)
    (mildsOk : documents.mapM (·.analyze base) = .ok milds)
    (beforeOk : ofDocuments milds grouping base = .ok before)
    (strictsOk : documents.mapM (·.analyze merged) = .ok stricts)
    (afterOk : ofDocuments stricts otherGrouping merged = .ok after) :
    List.Forall₂ ClassifiedItem.Hardened (classified before.documents)
        (classified after.documents) ∧
      (∃ kept, kept.Sublist before.items ∧
        List.Forall₂ ClassifiedItem.Hardened kept after.items) ∧
      before.excluded ≤ after.excluded := by
  obtain ⟨same, moreStarts, moreMarkers, mergedLists, startsWithin, markersWithin⟩ :=
    Config.lists_merge lists adds mergedOk
  have hardened := hardened_classified (Outcome.forall₂_of_mapM mildsOk strictsOk
    fun document _ mild strict mildOk strictOk =>
      lists.hardened_of_analyze mergedLists markersWithin same mildOk strictOk)
  obtain ⟨excluded, excludedOk, _, isBefore⟩ := ofDocuments_eq_ok_iff.mp beforeOk
  obtain ⟨otherExcluded, otherExcludedOk, _, isAfter⟩ := ofDocuments_eq_ok_iff.mp afterOk
  cases lists.excludedPaths.symm.trans excludedOk
  cases mergedLists.excludedPaths.symm.trans otherExcludedOk
  subst isBefore isAfter
  refine ⟨hardened, exists_kept_of_hardened (fun mild strict first => ?_) hardened⟩
  exact excludes_mono startsWithin first

/-- The default configuration with one more excluded path and one more marker. -/
theorem tangled_update_only_adds : ∃ document merged milds stricts before after,
    Index.load (.text Index.tangledText) = .ok document ∧
      Config.merge Config.defaults (.record Config.strictUpdate) = .ok merged ∧
      Document.analyze document Config.defaults = .ok milds ∧
      Document.analyze document merged = .ok stricts ∧
      ofDocuments [milds] .category Config.defaults = .ok before ∧
      ofDocuments [stricts] .category merged = .ok after ∧
      List.Forall₂ ClassifiedItem.Hardened (classified before.documents)
        (classified after.documents) ∧
      (∃ kept, kept.Sublist before.items ∧
        List.Forall₂ ClassifiedItem.Hardened kept after.items) ∧
      before.excluded ≤ after.excluded := by
  obtain ⟨document, loaded, keyed, _⟩ := Index.load_tangledText
  have coherent := Index.coherent_of_load loaded
  have ordered := Resolver.ordersContainers_of_keyed coherent keyed
  obtain ⟨milds, mildsOk⟩ := Config.regular_defaults.exists_analyze_eq_ok coherent ordered
  obtain ⟨stricts, strictsOk⟩ := Config.regular_strict.exists_analyze_eq_ok coherent ordered
  obtain ⟨before, beforeOk⟩ := Config.regular_defaults.exists_ofDocuments_eq_ok [milds] .category
  obtain ⟨after, afterOk⟩ := Config.regular_strict.exists_ofDocuments_eq_ok [stricts] .category
  have mildRun : [document].mapM (·.analyze Config.defaults) = .ok [milds] :=
    Outcome.mapM_eq_ok_iff.mpr (.cons mildsOk .nil)
  have strictRun : [document].mapM (·.analyze Config.strict) = .ok [stricts] :=
    Outcome.mapM_eq_ok_iff.mpr (.cons strictsOk .nil)
  exact ⟨document, _, milds, stricts, before, after, loaded, Config.merge_strictUpdate, mildsOk,
    strictsOk, beforeOk, afterOk, update_only_adds Config.lists_defaults Config.adds_strictUpdate
      Config.merge_strictUpdate mildRun beforeOk strictRun afterOk⟩

end Analysis

end ApiCensus
