import ApiCensus.Proofs.MatchedLists
import ApiCensus.Proofs.ReferenceCheck
import ApiCensus.Proofs.ReorderedIndex

/-!
# Loading an index in another order

Of two indexes that differ in order only either both are loaded or none is, and the
documents are alike.  Every stage of loading takes entries one by one, looks for
identifiers, or sorts them; where no two identifiers have the same key, sorting leaves
no trace of the order in which they came.
-/

namespace ApiCensus

/-! ### Matched indexes -/

/-- Records with matched entries; any other value is matched with itself only. -/
inductive Value.Matching (related : Scalar × Value → Scalar × Value → Prop) :
    Value → Value → Prop
  | record {entries others : List (Scalar × Value)} :
      Matched related entries others → Matching related (.record entries) (.record others)
  | other {value : Value} : value.isRecord = false → Matching related value value

namespace Value

variable {related : Scalar × Value → Scalar × Value → Prop} {left right : Value}

theorem Matching.symm (matching : left.Matching related right) :
    right.Matching (fun other entry => related entry other) left := by
  cases matching with
  | record matched => exact .record matched.symm
  | other noRecord => exact .other noRecord

theorem Matching.mono {weaker : Scalar × Value → Scalar × Value → Prop}
    (matching : left.Matching related right)
    (implies : ∀ entry other, related entry other → weaker entry other) :
    left.Matching weaker right := by
  cases matching with
  | record matched => exact .record (matched.mono implies)
  | other noRecord => exact .other noRecord

theorem Matching.orElse_noPayload (matching : left.Matching related right) :
    (left.orElse Entry.noPayload).Matching related (right.orElse Entry.noPayload) := by
  cases matching with
  | other noRecord =>
      unfold Value.orElse
      split
      · exact .other noRecord
      · exact .record ⟨by simp, by simp⟩
  | @record entries others matched =>
      cases entries with
      | nil =>
          cases others with
          | nil => exact .record matched
          | cons other others =>
              obtain ⟨entry, member, _⟩ := matched.2 other List.mem_cons_self
              cases member
      | cons entry entries =>
          cases others with
          | nil =>
              obtain ⟨other, member, _⟩ := matched.1 entry List.mem_cons_self
              cases member
          | cons other others => exact .record matched

theorem SameEntries.matching {related : Value → Value → Prop}
    (entries : left.SameEntries related right) (refl : ∀ value, related value value) :
    left.Matching (fun entry other => entry.1 = other.1 ∧ related entry.2 other.2) right := by
  cases entries with
  | record permuted pairs =>
      have matched := Matched.of_forall₂ pairs
      refine .record ⟨?_, ?_⟩
      · intro entry member
        exact matched.1 entry (permuted.mem_iff.mp member)
      · intro other otherMember
        obtain ⟨entry, member, holds⟩ := matched.2 other otherMember
        exact ⟨entry, permuted.mem_iff.mpr member, holds⟩
  | same =>
      cases left with
      | record entries => exact .record (.refl (fun entry => ⟨rfl, refl entry.2⟩) entries)
      | scalar content => exact .other rfl
      | list elements => exact .other rfl

end Value

namespace Index

/-- Two entries of an index under the same key, with alike records. -/
structure AlikeRecords (entry other : Scalar × Value) : Prop where
  key : entry.1 = other.1
  isRecord : entry.2.isRecord = other.2.isRecord
  alike : (Entry.ofRecord entry.1.toText entry.2).Alike (Entry.ofRecord other.1.toText other.2)

/-- Two parsed indexes that hold the same, in some order. -/
structure Matching (top other : Value) : Prop where
  version : top.get "format_version" = other.get "format_version"
  root : top.get "root" = other.get "root"
  index : (top.get "index").Matching AlikeRecords (other.get "index")
  paths : (top.get "paths").Matching Eq (other.get "paths")
  crates : (top.get "external_crates").Matching Eq (other.get "external_crates")

theorem Matching.symm {top other : Value} (matching : Matching top other) : Matching other top where
  version := matching.version.symm
  root := matching.root.symm
  index := matching.index.symm.mono fun _ _ alike =>
    ⟨alike.key.symm, alike.isRecord.symm, alike.alike.symm⟩
  paths := matching.paths.symm.mono fun _ _ same => same.symm
  crates := matching.crates.symm.mono fun _ _ same => same.symm

theorem matching_of_reordered {top other : Value} (reordered : Reordered top other) :
    Matching top other := by
  have part := Value.SameParts.get reordered .same
  have summaries : ∀ name, name ≠ "index" → (top.get name).Matching Eq (other.get name) := by
    intro name different
    refine (((part name).sameSummaries different).matching fun _ => rfl).mono ?_
    intro entry otherEntry same
    exact Prod.ext same.1 same.2
  constructor
  · exact (part "format_version").eq_of_not_mem (by decide)
  · exact (part "root").eq_of_not_mem (by decide)
  · refine (((part "index").sameRecords (by decide)).matching fun value => .same value).mono ?_
    rintro ⟨key, source⟩ ⟨otherKey, otherSource⟩ ⟨sameKey, same⟩
    dsimp only at sameKey
    subst sameKey
    exact ⟨rfl, Value.SameParts.isRecord same, Entry.alike_ofRecord same key.toText⟩
  · exact summaries "paths" (by decide)
  · exact summaries "external_crates" (by decide)

/-! ### The stages of loading -/

theorem exists_readPaths {left right : Value} {paths : List (ItemId × PathSummary)}
    (matching : left.Matching Eq right) (success : readPaths left = .ok paths) :
    ∃ others, readPaths right = .ok others ∧ Matched Eq paths others := by
  cases matching with
  | other noRecord =>
      cases left with
      | record entries => cases noRecord
      | scalar content => cases success
      | list elements => cases success
  | record matched =>
      refine matched.exists_mapM ?_ success
      rintro entry _ _ _ rfl
      exact .refl (fun _ => rfl) _

theorem exists_readCrates {left right : Value} {crates : List (String × String)}
    (matching : left.Matching Eq right) (success : readCrates left = .ok crates) :
    ∃ others, readCrates right = .ok others ∧ Matched Eq crates others := by
  cases matching with
  | other noRecord =>
      cases left with
      | record entries => cases noRecord
      | scalar content => cases success
      | list elements => cases success
  | record matched =>
      cases success
      exact ⟨_, rfl, matched.map fun _ _ same => by rw [same]⟩

theorem exists_readEntries {index otherIndex : List (Scalar × Value)} {entries : List Entry}
    (matched : Matched AlikeRecords index otherIndex) (success : readEntries index = .ok entries) :
    ∃ others, readEntries otherIndex = .ok others ∧ Matched Entry.Alike entries others := by
  refine matched.exists_mapM ?_ success
  rintro ⟨key, source⟩ _ ⟨otherKey, otherSource⟩ _ alike
  dsimp only
  rw [← alike.isRecord]
  split
  · exact .ok alike.alike
  · rw [show key = otherKey from alike.key]
    exact .error _

theorem readRoot_of_matched {top other : Value} {entries others : List Entry} {root : ItemId}
    (roots : top.get "root" = other.get "root") (matched : Matched Entry.Alike entries others)
    (success : readRoot top entries = .ok root) : readRoot other others = .ok root := by
  have same : entries.any (·.id == (top.get "root").toText) =
      others.any (·.id == (top.get "root").toText) := by
    have listed : (top.get "root").toText ∈ entries.map (·.id) ↔
        (top.get "root").toText ∈ others.map (·.id) :=
      matched.mem_map_iff fun _ _ alike => alike.id
    rw [Bool.eq_iff_iff]
    simpa using listed
  unfold readRoot at success ⊢
  rw [← roots]
  dsimp only at success ⊢
  rw [← same]
  exact success

theorem checkEntry_of_alike {known others : List ItemId} {entry other : Entry}
    (alike : entry.Alike other) (kept : ∀ id ∈ known, id ∈ others)
    (success : checkEntry known entry = .ok ()) : checkEntry others other = .ok () := by
  obtain ⟨owned, references, referencesOk, leads⟩ := of_checkEntry_eq_ok success
  obtain ⟨otherReferences, otherOk, permuted⟩ := alike.references.exists_ok referencesOk
  have owners : entry.ownerReference? = other.ownerReference? := by
    rw [Entry.ownerReference?, Entry.ownerReference?, alike.owner?]
  refine Outcome.bind_eq_ok_iff.mpr ⟨(), ?_, Outcome.bind_eq_ok_iff.mpr
    ⟨otherReferences, Outcome.liftM_shape_eq_ok_iff.mpr otherOk, ?_⟩⟩
  · apply Outcome.forM_eq_ok_iff.mpr
    intro reference member
    rw [← owners, Option.mem_toList] at member
    exact checkReference_eq_ok_iff.mpr (kept _ (owned reference member))
  · apply Outcome.forM_eq_ok_iff.mpr
    intro reference member
    exact checkReference_eq_ok_iff.mpr (kept _ (leads reference (permuted.mem_iff.mpr member)))

theorem checkReferences_of_forall {entries : List Entry} {paths : List (ItemId × PathSummary)}
    (keys : ∀ entry ∈ entries, entry.id.HasKey)
    (checked : ∀ entry ∈ entries,
      checkEntry (entries.map (·.id) ++ paths.map (·.1)) entry = .ok ()) :
    checkReferences entries paths = .ok () := by
  obtain ⟨order, orderOk⟩ : ∃ order, ItemId.sort (entries.map (·.id)) = .ok order :=
    ItemId.exists_sort_eq_ok (List.forall_mem_map.mpr keys)
  refine Outcome.bind_eq_ok_iff.mpr ⟨order, Outcome.liftM_integer_eq_ok_iff.mpr orderOk, ?_⟩
  apply Outcome.forM_eq_ok_iff.mpr
  intro id _
  split
  · rename_i entry found
    exact checked entry (List.mem_of_find?_eq_some found)
  · rfl

theorem exists_listings {entries others : List Entry} {listed : List (ItemId × List ItemId)}
    (matched : Matched Entry.Alike entries others) (success : listings entries = .ok listed) :
    ∃ otherListed, listings others = .ok otherListed ∧
      Matched (fun listing other => listing.1 = other.1 ∧ listing.2.Perm other.2)
        listed otherListed := by
  refine matched.exists_mapM ?_ success
  intro entry _ other _ alike
  have members : Outcome.Agree List.Perm (liftM entry.members : Except Failure (List ItemId))
      (liftM other.members) := alike.members.mapError _
  refine members.bind fun found otherFound permuted => .ok ⟨alike.id, ?_⟩
  exact permuted.append alike.impls

/-- The containers of an item do not depend on the order in which they list it. -/
theorem parents_of_alike {root : ItemId} {listed otherListed : List (ItemId × List ItemId)}
    {entry other : Entry} (alike : entry.Alike other)
    (matched : Matched (fun listing other => listing.1 = other.1 ∧ listing.2.Perm other.2)
      listed otherListed)
    (nodup : (listed.map (·.1)).Nodup) (otherNodup : (otherListed.map (·.1)).Nodup)
    (keys : ∀ id ∈ listed.map (·.1), id.HasKey) (distinct : ItemId.DistinctKeys (listed.map (·.1))) :
    parents root listed entry = parents root otherListed other := by
  have owners : ((listed.filter fun listing => listing.2.contains entry.id).map (·.1)).Perm
      ((otherListed.filter fun listing => listing.2.contains entry.id).map (·.1)) := by
    refine (List.perm_ext_iff_of_nodup (nodup.sublist (List.filter_sublist.map _))
      (otherNodup.sublist (List.filter_sublist.map _))).mpr fun id => ?_
    exact (matched.filter fun _ _ same => same.2.contains_eq).mem_map_iff fun _ _ same => same.1
  have inside : ∀ id ∈ (listed.filter fun listing => listing.2.contains entry.id).map (·.1),
      id ∈ listed.map (·.1) := fun id member => (List.filter_sublist.map _).subset member
  obtain ⟨sorted, sortedOk⟩ : ∃ sorted, ItemId.sort
      ((listed.filter fun listing => listing.2.contains entry.id).map (·.1)) = .ok sorted :=
    ItemId.exists_sort_eq_ok fun id member => keys id (inside id member)
  have otherSortedOk := ItemId.sort_eq_of_perm owners (fun left leftMember right rightMember =>
    distinct left (inside left leftMember) right (inside right rightMember)) sortedOk
  unfold parents
  rw [← alike.id, ← alike.owner?]
  split
  · rfl
  · split
    · rfl
    · dsimp only
      rw [sortedOk, otherSortedOk]

theorem itemOf_agree {root : ItemId} {listed otherListed : List (ItemId × List ItemId)}
    {entry other : Entry} (alike : entry.Alike other)
    (containers : parents root listed entry = parents root otherListed other) :
    Outcome.Agree Item.Alike (itemOf root listed entry) (itemOf root otherListed other) := by
  unfold itemOf
  rw [containers]
  refine .bind_same fun found => ?_
  exact (alike.item found).mapError _

/-- The references of matched entries lead to matched identifiers. -/
theorem checkReferences_of_matched {entries others : List Entry}
    {paths otherPaths : List (ItemId × PathSummary)} (matched : Matched Entry.Alike entries others)
    (pathsMatched : Matched Eq paths otherPaths) (nodup : (entries.map (·.id)).Nodup)
    (success : checkReferences entries paths = .ok ()) :
    checkReferences others otherPaths = .ok () := by
  have sameIds : ∀ id, id ∈ entries.map (·.id) ↔ id ∈ others.map (·.id) := fun id =>
    matched.mem_map_iff fun _ _ alike => alike.id
  have known : ∀ id ∈ entries.map (·.id) ++ paths.map (·.1),
      id ∈ others.map (·.id) ++ otherPaths.map (·.1) := by
    intro id member
    rw [List.mem_append] at member ⊢
    rw [← sameIds, ← pathsMatched.mem_map_iff fun _ _ same => congrArg Prod.fst same]
    exact member
  apply checkReferences_of_forall
  · intro other otherMember
    exact hasKey_of_checkReferences success ((sameIds _).mpr (List.mem_map_of_mem otherMember))
  · intro other otherMember
    obtain ⟨entry, member, alike⟩ := matched.2 other otherMember
    exact checkEntry_of_alike alike known (checkEntry_of_checkReferences nodup success member)

/-- Items of matched entries are matched, with the same containers. -/
theorem exists_items {root : ItemId} {entries others : List Entry}
    {listed otherListed : List (ItemId × List ItemId)} {items : List Item}
    (matched : Matched Entry.Alike entries others)
    (listedOk : listings entries = .ok listed) (otherListedOk : listings others = .ok otherListed)
    (nodup : (entries.map (·.id)).Nodup) (otherNodup : (others.map (·.id)).Nodup)
    (keys : ∀ id ∈ entries.map (·.id), id.HasKey) (distinct : ItemId.DistinctKeys (entries.map (·.id)))
    (success : entries.mapM (itemOf root listed) = .ok items) :
    ∃ otherItems, others.mapM (itemOf root otherListed) = .ok otherItems ∧
      Matched Item.Alike items otherItems := by
  obtain ⟨found, foundOk, listedMatched⟩ := exists_listings matched listedOk
  cases otherListedOk.symm.trans foundOk
  rw [← listings_ids listedOk] at nodup keys distinct
  rw [← listings_ids otherListedOk] at otherNodup
  refine matched.exists_mapM ?_ success
  intro entry _ other _ alike
  exact itemOf_agree alike (parents_of_alike alike listedMatched nodup otherNodup keys distinct)

theorem readPaths_nodup {raw : Value} {paths : List (ItemId × PathSummary)}
    (keyed : raw.TextKeyed) (success : readPaths raw = .ok paths) : (paths.map (·.1)).Nodup := by
  unfold readPaths at success
  split at success
  · rw [Outcome.map_eq_of_mapM success (·.1.toText) (·.1)]
    · exact keyed.nodup_keys
    · rintro ⟨key, summary⟩ _ path pathOk
      obtain ⟨_, _, same⟩ := Outcome.bind_eq_ok_iff.mp pathOk
      cases same
      rfl
  · cases success

theorem readCrates_nodup {raw : Value} {crates : List (String × String)}
    (keyed : raw.TextKeyed) (success : readCrates raw = .ok crates) :
    (crates.map (·.1)).Nodup := by
  unfold readCrates at success
  split at success
  · cases success
    rw [List.map_map]
    exact keyed.nodup_keys
  · cases success

/-! ### Alike documents -/

/-- No two identifiers of a parsed index have the same key. -/
def Unambiguous (top : Value) : Prop :=
  ∀ left right key, (top.get "index").has left = true → (top.get "index").has right = true →
    ItemId.key left = .ok key → ItemId.key right = .ok key → left = right

theorem Matching.exists_index {top other : Value} {index : List (Scalar × Value)}
    (matching : Matching top other) (indexOk : top.get "index" = .record index) :
    ∃ otherIndex, other.get "index" = .record otherIndex ∧
      Matched AlikeRecords index otherIndex := by
  have entries := matching.index
  rw [indexOk] at entries
  generalize other.get "index" = raw at entries
  cases entries with
  | record matched => exact ⟨_, rfl, matched⟩
  | other noRecord => cases noRecord

/-- Documents with the same items, summaries and crates are alike. -/
theorem alike_of_stages {top other : Value} {document otherDocument : Document}
    {index otherIndex : List (Scalar × Value)} {entries otherEntries : List Entry}
    {listed otherListed : List (ItemId × List ItemId)} (keyed : top.TextKeyed)
    (otherKeyed : other.TextKeyed) (stages : Stages top document index entries listed)
    (otherStages : Stages other otherDocument otherIndex otherEntries otherListed)
    (roots : document.root = otherDocument.root)
    (itemsMatched : Matched Item.Alike document.items otherDocument.items)
    (pathsMatched : Matched Eq document.paths otherDocument.paths)
    (cratesMatched : Matched Eq document.externalCrates otherDocument.externalCrates)
    (distinct : ItemId.DistinctKeys (entries.map (·.id))) : document.Alike otherDocument := by
  have nodup : document.ids.Nodup := by
    rw [stages.items_ids]
    exact stages.entries_nodup keyed
  have otherNodup : otherDocument.ids.Nodup := by
    rw [otherStages.items_ids]
    exact otherStages.entries_nodup otherKeyed
  have items : ∀ id, Option.Rel Item.Alike (document.item? id) (otherDocument.item? id) :=
    itemsMatched.find? (fun _ _ alike => alike.id) otherNodup
  refine ⟨roots, ?_, ?_, items, ?_, ?_⟩
  · rw [stages.named, otherStages.named]
    have found := items document.root
    unfold Document.item? at found
    rw [← roots]
    generalize document.items.find? (·.id == document.root) = item,
      otherDocument.items.find? (·.id == document.root) = otherItem at found
    cases found with
    | none => rfl
    | some alike =>
        cases alike
        rfl
  · have permuted : document.ids.Perm otherDocument.ids :=
      (List.perm_ext_iff_of_nodup nodup otherNodup).mpr fun id =>
        itemsMatched.mem_map_iff fun _ _ alike => alike.id
    -- Sorting is stable, so identifiers with equal keys would stay in their written order.
    rw [← stages.items_ids] at distinct
    obtain ⟨sorted, sortedOk⟩ : ∃ sorted, ItemId.sort document.ids = .ok sorted := by
      apply ItemId.exists_sort_eq_ok
      intro id member
      rw [stages.items_ids] at member
      exact hasKey_of_checkReferences stages.checkOk member
    rw [Document.sortedIds, Document.sortedIds, sortedOk,
      ItemId.sort_eq_of_perm permuted distinct sortedOk]
  · funext id
    exact pathsMatched.lookup
      (readPaths_nodup (otherKeyed.get "paths").orElse_noPayload otherStages.pathsOk) id
  · exact cratesMatched.lookup
      (readCrates_nodup (otherKeyed.get "external_crates").orElse_noPayload otherStages.cratesOk)

/-- An index that holds the same as one that is loaded is loaded, and as an alike document. -/
theorem exists_alike_of_matching {top other : Value} {document : Document}
    (keyed : top.TextKeyed) (otherKeyed : other.TextKeyed) (matching : Matching top other)
    (unambiguous : Unambiguous top) (success : ofValue top = .ok document) :
    ∃ otherDocument, ofValue other = .ok otherDocument ∧ document.Alike otherDocument := by
  obtain ⟨index, entries, listed, stages⟩ := ofValue_eq_ok_iff.mp success
  obtain ⟨otherIndex, otherIndexOk, indexMatched⟩ := matching.exists_index stages.indexOk
  obtain ⟨otherPaths, otherPathsOk, pathsMatched⟩ :=
    exists_readPaths matching.paths.orElse_noPayload stages.pathsOk
  obtain ⟨otherCrates, otherCratesOk, cratesMatched⟩ :=
    exists_readCrates matching.crates.orElse_noPayload stages.cratesOk
  obtain ⟨otherEntries, otherEntriesOk, entriesMatched⟩ :=
    exists_readEntries indexMatched stages.entriesOk
  obtain ⟨otherListed, otherListedOk, _⟩ := exists_listings entriesMatched stages.listedOk
  have indexKeyed := keyed.get "index"
  have otherIndexKeyed := otherKeyed.get "index"
  rw [stages.indexOk] at indexKeyed
  rw [otherIndexOk] at otherIndexKeyed
  have nodup : (entries.map (·.id)).Nodup := readEntries_nodup indexKeyed stages.entriesOk
  have otherNodup : (otherEntries.map (·.id)).Nodup :=
    readEntries_nodup otherIndexKeyed otherEntriesOk
  have distinct : ItemId.DistinctKeys (entries.map (·.id)) := by
    intro left leftMember right rightMember key leftOk rightOk
    rw [readEntries_ids stages.entriesOk, ← indexKeyed.has_iff, ← stages.indexOk]
      at leftMember rightMember
    exact unambiguous left right key leftMember rightMember leftOk rightOk
  obtain ⟨otherItems, otherItemsOk, itemsMatched⟩ :=
    exists_items entriesMatched stages.listedOk otherListedOk nodup otherNodup
      (fun id => hasKey_of_checkReferences stages.checkOk) distinct stages.itemsOk
  let otherDocument : Document := {
    formatVersion := document.formatVersion
    root := document.root
    crateName := ((otherItems.find? (·.id == document.root)).bind (·.properName?)).getD "crate"
    items := otherItems
    paths := otherPaths
    externalCrates := otherCrates }
  have otherStages : Stages other otherDocument otherIndex otherEntries otherListed := {
    versionOk := by
      have versionOk := stages.versionOk
      unfold readVersion at versionOk ⊢
      rw [← matching.version]
      exact versionOk
    indexOk := otherIndexOk
    pathsOk := otherPathsOk
    cratesOk := otherCratesOk
    entriesOk := otherEntriesOk
    rootOk := readRoot_of_matched matching.root entriesMatched stages.rootOk
    checkOk := checkReferences_of_matched entriesMatched pathsMatched nodup stages.checkOk
    listedOk := otherListedOk
    itemsOk := otherItemsOk
    named := rfl }
  refine ⟨otherDocument, ofValue_eq_ok_iff.mpr ⟨_, _, _, otherStages⟩, ?_⟩
  exact alike_of_stages keyed otherKeyed stages otherStages rfl itemsMatched pathsMatched
    cratesMatched distinct

theorem Unambiguous.of_matching {top other : Value} (keyed : top.TextKeyed)
    (otherKeyed : other.TextKeyed) (matching : Matching top other)
    (unambiguous : Unambiguous top) : Unambiguous other := by
  have names : ∀ id, (other.get "index").has id = true → (top.get "index").has id = true := by
    intro id present
    have indexKeyed := keyed.get "index"
    have otherIndexKeyed := otherKeyed.get "index"
    have entries := matching.index
    generalize top.get "index" = index, other.get "index" = otherIndex
      at entries indexKeyed otherIndexKeyed present
    cases entries with
    | other => exact present
    | record matched =>
        rw [otherIndexKeyed.has_iff] at present
        rw [indexKeyed.has_iff]
        exact (matched.mem_map_iff fun _ _ alike => congrArg Scalar.toText alike.key).mpr present
  intro left right key leftPresent rightPresent
  exact unambiguous left right key (names left leftPresent) (names right rightPresent)

/-- Two sources hold indexes that differ in order only and in which no two identifiers have
the same key. -/
def Source.Rearranges (source other : Source) : Prop :=
  ∃ top otherTop, source.Holds top ∧ other.Holds otherTop ∧ Reordered top otherTop ∧
    Unambiguous top

theorem Source.Holds.textKeyed {source : Source} {top : Value} (holds : source.Holds top) :
    top.TextKeyed := by
  obtain ⟨text, _, topOk⟩ := holds
  exact readRecord_textKeyed topOk

theorem load_of_holds {source : Source} {top : Value} (holds : source.Holds top) :
    load source = ofValue top := by
  obtain ⟨text, textOk, topOk⟩ := holds
  unfold load
  rw [textOk]
  dsimp only [bind, Except.bind]
  rw [topOk]

theorem exists_alike_of_load {source other : Source} {document : Document}
    (rearranges : source.Rearranges other) (loaded : load source = .ok document) :
    ∃ otherDocument, load other = .ok otherDocument ∧ document.Alike otherDocument := by
  obtain ⟨top, otherTop, holds, otherHolds, reordered, unambiguous⟩ := rearranges
  rw [load_of_holds holds] at loaded
  rw [load_of_holds otherHolds]
  exact exists_alike_of_matching holds.textKeyed otherHolds.textKeyed
    (matching_of_reordered reordered) unambiguous loaded

/-- Of two indexes that differ in order only either both are loaded or none is. -/
theorem exists_load_iff {source other : Source} (rearranges : source.Rearranges other) :
    (∃ document, load source = .ok document) ↔ ∃ document, load other = .ok document := by
  constructor
  · rintro ⟨document, loaded⟩
    obtain ⟨otherDocument, otherLoaded, _⟩ := exists_alike_of_load rearranges loaded
    exact ⟨otherDocument, otherLoaded⟩
  · rintro ⟨otherDocument, otherLoaded⟩
    obtain ⟨top, otherTop, holds, otherHolds, reordered, unambiguous⟩ := rearranges
    have matching := matching_of_reordered reordered
    rw [load_of_holds otherHolds] at otherLoaded
    rw [load_of_holds holds]
    obtain ⟨document, loaded, _⟩ := exists_alike_of_matching otherHolds.textKeyed holds.textKeyed
      matching.symm (unambiguous.of_matching holds.textKeyed otherHolds.textKeyed matching)
      otherLoaded
    exact ⟨document, loaded⟩

end Index

end ApiCensus
