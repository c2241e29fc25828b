import ApiCensus.Index.Load
import ApiCensus.Proofs.IdentifierOrder
import ApiCensus.Proofs.TextKeys

/-!
# What loading guarantees

A document that was loaded is coherent: its identifiers are distinct and can be
ordered, the root is one of them and has no container, and every container and
every re-export target is known.  These facts come from the stages of loading,
which `Index.Stages` names: the keys of a JSON record are distinct, and the
references of all entries have been checked.
-/

namespace ApiCensus

theorem find?_eq_some_of_distinct {α : Type} {idOf : α → ItemId} {elements : List α}
    (distinct : (elements.map idOf).Nodup) {element : α} (member : element ∈ elements) :
    elements.find? (idOf · == idOf element) = some element := by
  induction elements with
  | nil => cases member
  | cons first elements induction =>
      rw [List.map_cons, List.nodup_cons] at distinct
      rcases List.mem_cons.mp member with rfl | later
      · simp
      · have different : idOf first ≠ idOf element := by
          intro same
          exact distinct.1 (same ▸ List.mem_map_of_mem later)
        rw [List.find?_cons_of_neg (by simpa using different)]
        exact induction distinct.2 later

/-- What holds of every loaded document. -/
structure Document.Coherent (document : Document) : Prop where
  /-- No identifier occurs twice. -/
  distinct : document.ids.Nodup
  /-- Every identifier has a place in the order. -/
  keyed : ∀ id ∈ document.ids, id.HasKey
  /-- The root is in the index. -/
  rooted : document.root ∈ document.ids
  /-- The root has no container. -/
  rootFree : ∀ item ∈ document.items, item.id = document.root → item.parents = []
  /-- Every container is known. -/
  containersKnown : ∀ item ∈ document.items, ∀ container ∈ item.parents,
    document.isKnown container = true
  /-- Every re-export target is known. -/
  targetsKnown : ∀ item ∈ document.items, ∀ target,
    item.reexportTarget = some target → document.isKnown target = true

/-- Every container of an item has a place in the order of identifiers. -/
def Document.OrdersContainers (document : Document) : Prop :=
  ∀ item ∈ document.items, ∀ container ∈ item.parents, container.HasKey

namespace Document

theorem mem_of_item?_eq_some {document : Document} {id : ItemId} {item : Item}
    (found : document.item? id = some item) : item ∈ document.items ∧ item.id = id := by
  refine ⟨List.mem_of_find?_eq_some found, ?_⟩
  simpa using List.find?_some found

theorem isLocal_iff_mem_ids {document : Document} {id : ItemId} :
    document.isLocal id = true ↔ id ∈ document.ids := by
  simp [isLocal, item?, ids]

theorem isLocal_of_item?_eq_some {document : Document} {id : ItemId} {item : Item}
    (found : document.item? id = some item) : document.isLocal id = true := by
  simp [isLocal, found]

theorem exists_item_of_mem_ids {document : Document} {id : ItemId}
    (member : id ∈ document.ids) : ∃ item, document.item? id = some item :=
  Option.isSome_iff_exists.mp (isLocal_iff_mem_ids.mpr member)

theorem isKnown_iff {document : Document} {id : ItemId} :
    document.isKnown id = true ↔ id ∈ document.ids ∨ id ∈ document.paths.map (·.1) := by
  rw [isKnown, Bool.or_eq_true, isLocal_iff_mem_ids]
  apply or_congr_right
  simp [summary?, List.lookup_isSome_iff]

theorem Coherent.item?_id {document : Document} (coherent : document.Coherent) {item : Item}
    (member : item ∈ document.items) : document.item? item.id = some item :=
  find?_eq_some_of_distinct coherent.distinct member

end Document

namespace Index

/-- The intermediate results of loading a parsed index. -/
structure Stages (top : Value) (document : Document) (index : List (Scalar × Value))
    (entries : List Entry) (listed : List (ItemId × List ItemId)) : Prop where
  versionOk : readVersion top = .ok document.formatVersion
  indexOk : top.get "index" = .record index
  pathsOk : readPaths ((top.get "paths").orElse Entry.noPayload) = .ok document.paths
  cratesOk : readCrates ((top.get "external_crates").orElse Entry.noPayload) =
    .ok document.externalCrates
  entriesOk : readEntries index = .ok entries
  rootOk : readRoot top entries = .ok document.root
  checkOk : checkReferences entries document.paths = .ok ()
  listedOk : listings entries = .ok listed
  itemsOk : entries.mapM (itemOf document.root listed) = .ok document.items
  named : document.crateName =
    ((document.items.find? (·.id == document.root)).bind (·.properName?)).getD "crate"

/-- Loading a parsed index succeeds exactly if all its stages do. -/
theorem ofValue_eq_ok_iff {top : Value} {document : Document} :
    ofValue top = .ok document ↔
      ∃ index entries listed, Stages top document index entries listed := by
  constructor
  · intro success
    obtain ⟨version, versionOk, success⟩ := Outcome.bind_eq_ok_iff.mp success
    split at success
    · rename_i index indexOk
      obtain ⟨paths, pathsOk, success⟩ := Outcome.bind_eq_ok_iff.mp success
      obtain ⟨crates, cratesOk, success⟩ := Outcome.bind_eq_ok_iff.mp success
      obtain ⟨entries, entriesOk, success⟩ := Outcome.bind_eq_ok_iff.mp success
      obtain ⟨root, rootOk, success⟩ := Outcome.bind_eq_ok_iff.mp success
      obtain ⟨_, checkOk, success⟩ := Outcome.bind_eq_ok_iff.mp success
      obtain ⟨listed, listedOk, success⟩ := Outcome.bind_eq_ok_iff.mp success
      obtain ⟨items, itemsOk, success⟩ := Outcome.bind_eq_ok_iff.mp success
      cases success
      exact ⟨index, entries, listed, ⟨versionOk, indexOk, pathsOk, cratesOk, entriesOk,
        rootOk, checkOk, listedOk, itemsOk, rfl⟩⟩
    · cases success
  · rintro ⟨index, entries, listed, stages⟩
    obtain ⟨formatVersion, root, crateName, items, paths, externalCrates⟩ := document
    have named := stages.named
    dsimp only at named
    subst named
    refine Outcome.bind_eq_ok_iff.mpr ⟨_, stages.versionOk, ?_⟩
    rw [stages.indexOk]
    refine Outcome.bind_eq_ok_iff.mpr ⟨_, stages.pathsOk, ?_⟩
    refine Outcome.bind_eq_ok_iff.mpr ⟨_, stages.cratesOk, ?_⟩
    refine Outcome.bind_eq_ok_iff.mpr ⟨_, stages.entriesOk, ?_⟩
    refine Outcome.bind_eq_ok_iff.mpr ⟨_, stages.rootOk, ?_⟩
    refine Outcome.bind_eq_ok_iff.mpr ⟨_, stages.checkOk, ?_⟩
    refine Outcome.bind_eq_ok_iff.mpr ⟨_, stages.listedOk, ?_⟩
    exact Outcome.bind_eq_ok_iff.mpr ⟨_, stages.itemsOk, rfl⟩

theorem load_eq_ok_iff {source : Source} {document : Document} :
    load source = .ok document ↔
      ∃ text top, source.read = .ok text ∧ readRecord text = .ok top ∧
        ofValue top = .ok document := by
  constructor
  · intro success
    obtain ⟨text, textOk, success⟩ := Outcome.bind_eq_ok_iff.mp success
    obtain ⟨top, topOk, success⟩ := Outcome.bind_eq_ok_iff.mp success
    exact ⟨text, top, textOk, topOk, success⟩
  · rintro ⟨text, top, textOk, topOk, success⟩
    exact Outcome.bind_eq_ok_iff.mpr ⟨text, textOk,
      Outcome.bind_eq_ok_iff.mpr ⟨top, topOk, success⟩⟩

theorem readRecord_of_read {text : String} {top : Value} (read : Json.read text = .ok top)
    (isRecord : top.isRecord = true) : readRecord text = .ok top := by
  unfold readRecord
  rw [read]
  exact if_pos isRecord

theorem load_of_stages {text : String} {top : Value} {document : Document}
    {index : List (Scalar × Value)} {entries : List Entry} {listed : List (ItemId × List ItemId)}
    (read : Json.read text = .ok top) (isRecord : top.isRecord = true)
    (stages : Stages top document index entries listed) : load (.text text) = .ok document := by
  exact load_eq_ok_iff.mpr ⟨text, top, rfl, readRecord_of_read read isRecord,
    ofValue_eq_ok_iff.mpr ⟨_, _, _, stages⟩⟩

theorem readRecord_textKeyed {text : String} {top : Value}
    (success : readRecord text = .ok top) : top.TextKeyed := by
  obtain ⟨value, valueOk, success⟩ := Outcome.bind_eq_ok_iff.mp success
  split at success
  · cases success
    exact Json.read_textKeyed (Outcome.mapError_eq_ok_iff.mp valueOk)
  · cases success

/-! ### Entries and items -/

theorem readEntries_ids {index : List (Scalar × Value)} {entries : List Entry}
    (success : readEntries index = .ok entries) :
    entries.map (·.id) = index.map (·.1.toText) := by
  apply Outcome.map_eq_of_mapM success (·.1.toText) (·.id)
  rintro ⟨key, source⟩ _ entry entryOk
  dsimp only at entryOk
  split at entryOk
  · cases entryOk
    rfl
  · cases entryOk

/-- The entries of an index that was read from a text have distinct identifiers. -/
theorem readEntries_nodup {index : List (Scalar × Value)} {entries : List Entry}
    (keyed : Value.TextKeyed (.record index)) (success : readEntries index = .ok entries) :
    (entries.map (·.id)).Nodup := by
  rw [readEntries_ids success]
  exact keyed.nodup_keys

theorem Stages.entries_nodup {top : Value} {document : Document}
    {index : List (Scalar × Value)} {entries : List Entry}
    {listed : List (ItemId × List ItemId)}
    (stages : Stages top document index entries listed) (keyed : top.TextKeyed) :
    (entries.map (·.id)).Nodup := by
  have indexKeyed := keyed.get "index"
  rw [stages.indexOk] at indexKeyed
  exact readEntries_nodup indexKeyed stages.entriesOk

theorem itemOf_of_parents {root : ItemId} {listed : List (ItemId × List ItemId)} {entry : Entry}
    {containers : List ItemId} {item : Item}
    (containersOk : parents root listed entry = .ok containers)
    (itemOk : Index.item containers entry = .ok item) : itemOf root listed entry = .ok item :=
  Outcome.bind_eq_ok_iff.mpr
    ⟨containers, containersOk, Outcome.liftM_shape_eq_ok_iff.mpr itemOk⟩

/-- What an item takes over from its entry. -/
structure Yields (root : ItemId) (listed : List (ItemId × List ItemId)) (entry : Entry)
    (item : Item) : Prop where
  id : item.id = entry.id
  containersOk : parents root listed entry = .ok item.parents
  membersOk : entry.members = .ok item.children
  impls : item.impls = entry.impls
  reexportTarget : item.reexportTarget = entry.reexportTarget?
  traitId : item.traitId = entry.traitId?
  visibility : item.visibility = entry.visibility
  genericsOk : generics entry.payload = .ok item.generics
  inner : item.inner = entry.body

theorem yields_of_itemOf_eq_ok {root : ItemId} {listed : List (ItemId × List ItemId)}
    {entry : Entry} {item : Item} (success : itemOf root listed entry = .ok item) :
    Yields root listed entry item := by
  obtain ⟨containers, containersOk, builtOk⟩ := Outcome.bind_eq_ok_iff.mp success
  have itemOk := Outcome.liftM_shape_eq_ok_iff.mp builtOk
  unfold Index.item at itemOk
  dsimp only at itemOk
  obtain ⟨_, _, itemOk⟩ := Outcome.bind_eq_ok_iff.mp itemOk
  obtain ⟨children, childrenOk, itemOk⟩ := Outcome.bind_eq_ok_iff.mp itemOk
  obtain ⟨_, _, itemOk⟩ := Outcome.bind_eq_ok_iff.mp itemOk
  obtain ⟨params, paramsOk, itemOk⟩ := Outcome.bind_eq_ok_iff.mp itemOk
  cases itemOk
  constructor
  case containersOk => exact containersOk
  case membersOk => exact childrenOk
  case genericsOk => exact paramsOk
  all_goals dsimp only

theorem Stages.items_ids {top : Value} {document : Document}
    {index : List (Scalar × Value)} {entries : List Entry}
    {listed : List (ItemId × List ItemId)}
    (stages : Stages top document index entries listed) :
    document.ids = entries.map (·.id) :=
  Outcome.map_eq_of_mapM stages.itemsOk (·.id) (·.id)
    fun _ _ _ itemOk => (yields_of_itemOf_eq_ok itemOk).id

theorem listings_ids {entries : List Entry} {listed : List (ItemId × List ItemId)}
    (success : listings entries = .ok listed) : listed.map (·.1) = entries.map (·.id) := by
  apply Outcome.map_eq_of_mapM success (·.id) (·.1)
  intro entry _ listing listingOk
  obtain ⟨_, _, same⟩ := Outcome.bind_eq_ok_iff.mp listingOk
  cases same
  rfl

theorem Stages.listed_ids {top : Value} {document : Document}
    {index : List (Scalar × Value)} {entries : List Entry}
    {listed : List (ItemId × List ItemId)}
    (stages : Stages top document index entries listed) :
    listed.map (·.1) = entries.map (·.id) :=
  listings_ids stages.listedOk

/-! ### Checked references -/

theorem checkReference_eq_ok_iff {known : List ItemId} {referrer : ItemId}
    {reference : Reference} :
    checkReference known referrer reference = .ok () ↔ reference.target ∈ known := by
  unfold checkReference
  split
  · simp_all
  · simp_all

/-- Every reference of an entry that passed the check leads to a known identifier. -/
theorem of_checkEntry_eq_ok {known : List ItemId} {entry : Entry}
    (success : checkEntry known entry = .ok ()) :
    (∀ reference ∈ entry.ownerReference?, reference.target ∈ known) ∧
      ∃ references, entry.references = .ok references ∧
        ∀ reference ∈ references, reference.target ∈ known := by
  obtain ⟨_, ownerOk, success⟩ := Outcome.bind_eq_ok_iff.mp success
  obtain ⟨references, referencesOk, success⟩ := Outcome.bind_eq_ok_iff.mp success
  refine ⟨?_, references, Outcome.liftM_shape_eq_ok_iff.mp referencesOk, ?_⟩
  · intro reference member
    exact checkReference_eq_ok_iff.mp
      (Outcome.forM_eq_ok_iff.mp ownerOk reference (by simpa using member))
  · intro reference member
    exact checkReference_eq_ok_iff.mp (Outcome.forM_eq_ok_iff.mp success reference member)

/-- Every entry is checked: sorting its identifiers loses none, and an identifier
leads back to its only entry. -/
theorem checkEntry_of_checkReferences {entries : List Entry}
    {paths : List (ItemId × PathSummary)} (distinct : (entries.map (·.id)).Nodup)
    (success : checkReferences entries paths = .ok ()) {entry : Entry}
    (member : entry ∈ entries) :
    checkEntry (entries.map (·.id) ++ paths.map (·.1)) entry = .ok () := by
  obtain ⟨order, orderOk, success⟩ := Outcome.bind_eq_ok_iff.mp success
  have sorted := ItemId.sort_perm (Outcome.liftM_integer_eq_ok_iff.mp orderOk)
  have position : entry.id ∈ order := sorted.mem_iff.mpr (List.mem_map_of_mem member)
  have checked := Outcome.forM_eq_ok_iff.mp success entry.id position
  have found : entries.find? (·.id == entry.id) = some entry :=
    find?_eq_some_of_distinct distinct member
  rw [found] at checked
  exact checked

/-- The check sorts the identifiers, so that each of them has a key. -/
theorem hasKey_of_checkReferences {entries : List Entry} {paths : List (ItemId × PathSummary)}
    (success : checkReferences entries paths = .ok ()) {id : ItemId}
    (member : id ∈ entries.map (·.id)) : id.HasKey := by
  obtain ⟨order, orderOk, _⟩ := Outcome.bind_eq_ok_iff.mp success
  exact ItemId.hasKey_of_sort_eq_ok (Outcome.liftM_integer_eq_ok_iff.mp orderOk) member

theorem parents_of_root {root : ItemId} {listed : List (ItemId × List ItemId)} {entry : Entry}
    (isRoot : entry.id = root) : parents root listed entry = .ok [] := by
  simp [parents, isRoot]

theorem parents_of_owner {root owner : ItemId} {listed : List (ItemId × List ItemId)}
    {entry : Entry} (notRoot : entry.id ≠ root) (owned : entry.owner? = some owner) :
    parents root listed entry = .ok [owner] := by
  simp [parents, notRoot, owned]

/-- Every container of an entry is an owner that it names or an entry that lists it. -/
theorem mem_of_parents_eq_ok {root : ItemId} {listed : List (ItemId × List ItemId)}
    {entry : Entry} {containers : List ItemId}
    (success : parents root listed entry = .ok containers) {container : ItemId}
    (member : container ∈ containers) :
    entry.owner? = some container ∨ container ∈ listed.map (·.1) := by
  unfold parents at success
  split at success
  · cases success
    cases member
  · split at success
    · rename_i owner ownerFound
      cases success
      rw [List.mem_singleton] at member
      subst member
      exact .inl ownerFound
    · right
      have sorted := ItemId.sort_perm (Outcome.liftM_integer_eq_ok_iff.mp success)
      obtain ⟨listing, listingMember, rfl⟩ := List.mem_map.mp (sorted.mem_iff.mp member)
      exact List.mem_map_of_mem (List.mem_of_mem_filter listingMember)

/-- A loaded document is coherent. -/
theorem coherent_of_load {source : Source} {document : Document}
    (loaded : load source = .ok document) : document.Coherent := by
  obtain ⟨text, top, _, topOk, valueOk⟩ := load_eq_ok_iff.mp loaded
  obtain ⟨index, entries, listed, stages⟩ := ofValue_eq_ok_iff.mp valueOk
  have distinct := stages.entries_nodup (readRecord_textKeyed topOk)
  have known : ∀ id, id ∈ entries.map (·.id) ++ document.paths.map (·.1) ↔
      document.isKnown id = true := by
    intro id
    rw [List.mem_append, Document.isKnown_iff, stages.items_ids]
  have origin : ∀ item ∈ document.items, ∃ entry ∈ entries,
      itemOf document.root listed entry = .ok item :=
    fun item member => Outcome.exists_of_mem_mapM stages.itemsOk member
  have checked : ∀ entry ∈ entries,
      checkEntry (entries.map (·.id) ++ document.paths.map (·.1)) entry = .ok () :=
    fun entry member => checkEntry_of_checkReferences distinct stages.checkOk member
  constructor
  · rw [stages.items_ids]
    exact distinct
  · intro id member
    rw [stages.items_ids] at member
    exact hasKey_of_checkReferences stages.checkOk member
  · have rootOk := stages.rootOk
    unfold readRoot at rootOk
    dsimp only at rootOk
    split at rootOk
    · cases rootOk
    · split at rootOk
      · rename_i found
        obtain ⟨entry, member, same⟩ := List.any_eq_true.mp found
        rw [stages.items_ids, ← Except.ok.inj rootOk, ← eq_of_beq same]
        exact List.mem_map_of_mem member
      · cases rootOk
  · intro item member isRoot
    obtain ⟨entry, _, itemOk⟩ := origin item member
    have yields := yields_of_itemOf_eq_ok itemOk
    have containersOk := yields.containersOk
    rw [parents_of_root (yields.id.symm.trans isRoot)] at containersOk
    exact (Except.ok.inj containersOk).symm
  · intro item member container containerMember
    obtain ⟨entry, entryMember, itemOk⟩ := origin item member
    have containersOk := (yields_of_itemOf_eq_ok itemOk).containersOk
    apply (known container).mp
    rcases mem_of_parents_eq_ok containersOk containerMember with owned | listing
    · have references := (of_checkEntry_eq_ok (checked entry entryMember)).1
      exact references ⟨container, .owner⟩ (by simp [Entry.ownerReference?, owned])
    · rw [stages.listed_ids] at listing
      exact List.mem_append_left _ listing
  · intro item member target exposes
    obtain ⟨entry, entryMember, itemOk⟩ := origin item member
    have sameTarget := (yields_of_itemOf_eq_ok itemOk).reexportTarget
    obtain ⟨references, referencesOk, leads⟩ :=
      (of_checkEntry_eq_ok (checked entry entryMember)).2
    apply (known target).mp
    apply leads ⟨target, .reexportTarget⟩
    obtain ⟨members, _, referencesOk⟩ := Outcome.bind_eq_ok_iff.mp referencesOk
    cases referencesOk
    simp [← sameTarget, exposes]

/-! ### A tangled index -/

/-- An item that has nothing but a name, containers and members. -/
def plainItem (id : ItemId) (kind : ItemKind) (tag : String) (name : Option String)
    (parents children : List ItemId) (inner : Value) : Item where
  id
  kind
  rawKind := tag
  name
  crateId := "0"
  visibility := .inherited
  parents
  children
  attrs := []
  deprecation := none
  generics := []
  hasDocs := false
  reexportTarget := none
  traitId := none
  traitName := none
  impls := []
  hasBody := true
  isConst := false
  isAsync := false
  isUnsafe := false
  isSynthetic := false
  isBlanket := false
  inner

/-- The payload of a module with the given members. -/
def membersOf (members : List Int) : Value :=
  .ofFields [("items", .list (members.map .int))]

/-- An index in which two items contain each other, and a re-export that lies below
an external container and contains an item exposes itself. -/
def tangledText : String :=
  "\x7b\"format_version\":30,\"root\":0,\"index\":\x7b\"0\":\x7b\x7d," ++
    "\"1\":\x7b\"parent\":2\x7d,\"2\":\x7b\"parent\":1\x7d," ++
    "\"3\":\x7b\"parent\":9,\"kind\":\"use\",\"inner\":\x7b\"id\":3\x7d\x7d," ++
    "\"4\":\x7b\"parent\":3\x7d\x7d," ++
    "\"paths\":\x7b\"9\":\x7b\"path\":[\"std\"]\x7d\x7d\x7d"

/-- The record that the text of the tangled index holds. -/
def tangledRecord : Value :=
  .ofFields [("format_version", .int 30), ("root", .int 0),
    ("index", .ofFields [("0", .record []),
      ("1", .ofFields [("parent", .int 2)]),
      ("2", .ofFields [("parent", .int 1)]),
      ("3", .ofFields [("parent", .int 9), ("kind", .text "use"),
        ("inner", .ofFields [("id", .int 3)])]),
      ("4", .ofFields [("parent", .int 3)])]),
    ("paths", .ofFields [("9", .ofFields [("path", .list [.text "std"])])])]

theorem read_tangledText : Json.read tangledText = .ok tangledRecord := by
  decide +kernel

theorem sort_tangled :
    ItemId.sort ["0", "1", "2", "3", "4"] = .ok ["0", "1", "2", "3", "4"] :=
  @ItemId.sort_eq_self _ [(.number 0, "0"), (.number 1, "1"), (.number 2, "2"),
    (.number 3, "3"), (.number 4, "4")] rfl (by decide)

/-- The tangled index is loaded with these items, and all its identifiers can be ordered. -/
theorem load_tangledItems : ∃ document, load (.text tangledText) = .ok document ∧
    (∀ entry ∈ document.paths, entry.1.HasKey) ∧
    document.items.map (fun item => (item.id, item.parents, item.kind, item.reexportTarget)) =
      [("0", [], .other, none), ("1", ["2"], .other, none), ("2", ["1"], .other, none),
        ("3", ["9"], .reexport, some "3"), ("4", ["3"], .other, none)] := by
  -- Every stage but the sorting of identifiers is found by evaluation.
  refine ⟨⟨_, _, _, _, _, _⟩, load_of_stages read_tangledText rfl
    ⟨rfl, rfl, rfl, rfl, rfl, rfl, ?_, rfl, rfl, rfl⟩, ?_, rfl⟩
  · exact Outcome.bind_eq_ok_iff.mpr
      ⟨_, Outcome.liftM_integer_eq_ok_iff.mpr sort_tangled, rfl⟩
  · exact List.forall_mem_singleton.mpr ⟨.number 9, rfl⟩

theorem load_tangledText : ∃ document, load (.text tangledText) = .ok document ∧
    (∀ entry ∈ document.paths, entry.1.HasKey) ∧ document.ids = ["0", "1", "2", "3", "4"] ∧
    document.items.map (fun item => (item.id, item.parents)) =
      [("0", []), ("1", ["2"]), ("2", ["1"]), ("3", ["9"]), ("4", ["3"])] := by
  obtain ⟨document, loaded, keyed, items⟩ := load_tangledItems
  refine ⟨document, loaded, keyed, ?_, ?_⟩
  · have ids := congrArg (List.map (·.1)) items
    rw [List.map_map] at ids
    exact ids
  · have parents := congrArg (List.map fun entry => (entry.1, entry.2.1)) items
    rw [List.map_map] at parents
    exact parents

end Index

end ApiCensus
