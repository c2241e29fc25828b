import ApiCensus.Proofs.ReferenceCheck

/-!
# Containers and what they list

The containers of an item are collected before the items are built, from what the entries list;
what an item lists itself is stored when it is built.  Both come from the same members and impl
blocks of an entry, so that the two directions agree: unless an item names its owner, its
containers are just the items that list it.  Each of them occurs once, however often it lists the
item, and they stand in the order of identifiers.
-/

namespace ApiCensus

/-- The container lists the item among its members or its impl blocks. -/
def Document.Lists (document : Document) (container id : ItemId) : Prop :=
  ∃ owner ∈ document.items, owner.id = container ∧ (id ∈ owner.children ∨ id ∈ owner.impls)

namespace Index

variable {root : ItemId} {listed : List (ItemId × List ItemId)} {entry : Entry}

/-- The entries that list an entry are its containers, if it names no owner. -/
theorem of_parents_of_unowned (notRoot : entry.id ≠ root) (unowned : entry.owner? = none)
    {containers : List ItemId} (success : parents root listed entry = .ok containers) :
    containers.Perm ((listed.filter fun listing => listing.2.contains entry.id).map (·.1)) ∧
      containers.Pairwise ItemId.NotAfter := by
  unfold parents at success
  rw [if_neg notRoot, unowned] at success
  have sorted := Outcome.liftM_integer_eq_ok_iff.mp success
  exact ⟨ItemId.sort_perm sorted, ItemId.sort_notAfter sorted⟩

section

variable {top : Value} {document : Document} {index : List (Scalar × Value)}
  {entries : List Entry} (stages : Stages top document index entries listed)

include stages

/-- What the entries list is what the items list. -/
theorem Stages.listed_eq :
    listed = document.items.map fun item => (item.id, item.children ++ item.impls) := by
  rw [← List.forall₂_eq_eq_eq, List.forall₂_map_right_iff]
  apply Outcome.forall₂_of_mapM stages.listedOk stages.itemsOk
  intro entry _ listing item listingOk itemOk
  have yields := yields_of_itemOf_eq_ok itemOk
  obtain ⟨members, membersOk, same⟩ := Outcome.bind_eq_ok_iff.mp listingOk
  cases yields.membersOk.symm.trans (Outcome.liftM_shape_eq_ok_iff.mp membersOk)
  cases same
  rw [yields.id, yields.impls]

theorem Stages.containers_perm (notRoot : entry.id ≠ document.root)
    (unowned : entry.owner? = none) {containers : List ItemId}
    (success : parents document.root listed entry = .ok containers) :
    containers.Perm ((document.items.filter fun owner =>
      (owner.children ++ owner.impls).contains entry.id).map (·.id)) := by
  have collected := (of_parents_of_unowned notRoot unowned success).1
  rwa [stages.listed_eq, List.filter_map, List.map_map] at collected

end

/-- The root of a loaded document has no container, an item that names its owner has this one, and
the containers of any other item are the items that list it, each once and in the order of
identifiers. -/
theorem parents_match_listings {source : Source} {document : Document}
    (loaded : load source = .ok document) :
    ∃ top, source.Holds top ∧ ∀ item ∈ document.items, ∃ record,
      (top.get "index").get? item.id = some record ∧
      (item.id = document.root → item.parents = []) ∧
      (item.id ≠ document.root → (record.get "parent").isNull = false →
        item.parents = [(record.get "parent").toText]) ∧
      (item.id ≠ document.root → (record.get "parent").isNull = true →
        (∀ container, container ∈ item.parents ↔ document.Lists container item.id) ∧
        item.parents.Nodup ∧ item.parents.Pairwise ItemId.NotAfter) := by
  obtain ⟨text, top, textOk, topOk, valueOk⟩ := load_eq_ok_iff.mp loaded
  obtain ⟨index, entries, listed, stages⟩ := ofValue_eq_ok_iff.mp valueOk
  have keyed := (readRecord_textKeyed topOk).get "index"
  rw [stages.indexOk] at keyed
  refine ⟨top, ⟨text, textOk, topOk⟩, ?_⟩
  intro item member
  obtain ⟨entry, entryMember, itemOk⟩ := Outcome.exists_of_mem_mapM stages.itemsOk member
  have yields := yields_of_itemOf_eq_ok itemOk
  obtain ⟨record, found, same⟩ := exists_record_of_mem keyed stages.entriesOk entryMember
  have recorded : entry.source = record := by
    rw [same]
    rfl
  rw [stages.indexOk, yields.id]
  refine ⟨record, found, ?_, ?_, ?_⟩
  · rw [← yields.id]
    exact (coherent_of_load loaded).rootFree item member
  · intro notRoot named
    have owned : entry.owner? = some (record.get "parent").toText := by
      simp [Entry.owner?, recorded, named]
    have containersOk := yields.containersOk
    rw [parents_of_owner notRoot owned] at containersOk
    exact (Except.ok.inj containersOk).symm
  · intro notRoot unnamed
    have unowned : entry.owner? = none := by simp [Entry.owner?, recorded, unnamed]
    have collected := stages.containers_perm notRoot unowned yields.containersOk
    refine ⟨?_, ?_, (of_parents_of_unowned notRoot unowned yields.containersOk).2⟩
    · intro container
      rw [collected.mem_iff]
      simp [Document.Lists, and_comm, and_assoc]
    · rw [collected.nodup_iff]
      exact (coherent_of_load loaded).distinct.sublist (List.filter_sublist.map _)

/-! ### Repeated listings -/

/-- An index with a module that is listed twice by the root and once by itself. It also lists the
root, and an item that names another owner. -/
def overlapText : String :=
  "\x7b\"format_version\":30,\"root\":0,\"index\":\x7b" ++
    "\"0\":\x7b\"inner\":\x7b\"module\":\x7b\"items\":[1,1]\x7d\x7d\x7d," ++
    "\"1\":\x7b\"inner\":\x7b\"module\":\x7b\"items\":[1,0,2]\x7d\x7d\x7d," ++
    "\"2\":\x7b\"parent\":0\x7d\x7d\x7d"

/-- The record that the text of the index holds. -/
def overlapRecord : Value :=
  .ofFields [("format_version", .int 30), ("root", .int 0),
    ("index", .ofFields [("0", .ofFields [("inner", .ofFields [("module", membersOf [1, 1])])]),
      ("1", .ofFields [("inner", .ofFields [("module", membersOf [1, 0, 2])])]),
      ("2", .ofFields [("parent", .int 0)])])]

/-- The document of the index. -/
def overlaps : Document where
  formatVersion := 30
  root := "0"
  crateName := "crate"
  items := [plainItem "0" .module "module" none [] ["1", "1"] (membersOf [1, 1]),
    plainItem "1" .module "module" none ["0", "1"] ["1", "0", "2"] (membersOf [1, 0, 2]),
    plainItem "2" .other "unknown" none ["0"] [] (.record [])]
  paths := []
  externalCrates := []

theorem read_overlapText : Json.read overlapText = .ok overlapRecord := by
  decide +kernel

theorem load_overlaps : load (.text overlapText) = .ok overlaps := by
  have both : ItemId.sort ["0", "1"] = .ok ["0", "1"] :=
    @ItemId.sort_eq_self _ [(.number 0, "0"), (.number 1, "1")] rfl (by decide)
  have all : ItemId.sort ["0", "1", "2"] = .ok ["0", "1", "2"] :=
    @ItemId.sort_eq_self _ [(.number 0, "0"), (.number 1, "1"), (.number 2, "2")] rfl (by decide)
  refine load_of_stages read_overlapText rfl
    ⟨rfl, rfl, rfl, rfl, rfl, rfl, ?_, rfl, Outcome.mapM_eq_ok_iff.mpr
      (.cons rfl (.cons (itemOf_of_parents (Outcome.liftM_integer_eq_ok_iff.mpr both) rfl)
        (.cons rfl .nil))), rfl⟩
  exact Outcome.bind_eq_ok_iff.mpr ⟨_, Outcome.liftM_integer_eq_ok_iff.mpr all, rfl⟩

/-- The containers of the module are the root and itself. -/
theorem overlaps_parents_match :
    load (.text overlapText) = .ok overlaps ∧ overlaps.root = "0" ∧
    (∀ container, container ∈ ["0", "1"] ↔ overlaps.Lists container "1") ∧
    ["0", "1"].Pairwise ItemId.NotAfter := by
  obtain ⟨top, ⟨text, textOk, topOk⟩, matched⟩ := parents_match_listings load_overlaps
  cases textOk
  cases topOk.symm.trans (readRecord_of_read read_overlapText rfl)
  obtain ⟨record, found, _, _, listed⟩ := matched _ (List.mem_cons_of_mem _ List.mem_cons_self)
  cases found
  obtain ⟨dual, _, ordered⟩ := listed (by decide) rfl
  exact ⟨load_overlaps, rfl, dual, ordered⟩

end Index

end ApiCensus
