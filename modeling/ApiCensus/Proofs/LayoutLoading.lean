import ApiCensus.Proofs.CurrentLayout

/-!
# Both layouts load to the same document

An index and its rewriting into the current layout are loaded alike: every stage of loading
finds the same in both, so they fail for the same cause or give documents that differ only in
the tags and payloads that their items keep.
-/

namespace ApiCensus

theorem Item.SameButSpelling.id {item other : Item} (same : item.SameButSpelling other) :
    other.id = item.id := by
  unfold SameButSpelling at same
  rw [same]

theorem Item.SameButSpelling.properName? {item other : Item} (same : item.SameButSpelling other) :
    other.properName? = item.properName? := by
  unfold SameButSpelling at same
  unfold Item.properName?
  rw [same]

/-- In lists that agree element by element the same is found under an identifier. -/
theorem find?_of_pairs {α β : Type} {related : α → β → Prop} {left : List α} {right : List β}
    {idOf : α → ItemId} {otherIdOf : β → ItemId} (pairs : List.Forall₂ related left right)
    (kept : ∀ element other, related element other → otherIdOf other = idOf element) (id : ItemId) :
    Option.Rel related (left.find? (idOf · == id)) (right.find? (otherIdOf · == id)) := by
  induction pairs with
  | nil => exact .none
  | @cons element other left right holds _ induction =>
      rw [List.find?_cons, List.find?_cons, kept element other holds]
      cases idOf element == id with
      | true => exact .some holds
      | false => exact induction

/-- The other document is the same, but for the tags and payloads that its items keep. -/
structure Document.SameButSpelling (document other : Document) : Prop where
  formatVersion : other.formatVersion = document.formatVersion
  root : other.root = document.root
  crateName : other.crateName = document.crateName
  paths : other.paths = document.paths
  externalCrates : other.externalCrates = document.externalCrates
  items : List.Forall₂ Item.SameButSpelling document.items other.items

namespace Index

variable {top : Value} {entries others : List Entry}

theorem get_currentLayout {name : String} (different : name ≠ "index") :
    (currentLayout top).get name = top.get name :=
  Value.get_alter_of_ne different currentRecords top

theorem isRecord_currentRecord (source : Value) :
    (currentRecord source).isRecord = source.isRecord := by
  unfold currentRecord
  split
  · rw [Value.isRecord_assign, Value.isRecord_without]
  · rw [Value.isRecord_alter]

/-- Entries are read from the same records, in the same order. -/
theorem readEntries_agree (index : List (Scalar × Value)) :
    Outcome.Agree (List.Forall₂ Entry.Renewed) (readEntries index)
      (readEntries (index.map fun (key, source) => (key, currentRecord source))) := by
  have pairs : List.Forall₂ (fun entry other : Scalar × Value =>
      other = (entry.1, currentRecord entry.2)) index
        (index.map fun (key, source) => (key, currentRecord source)) := by
    rw [List.forall₂_map_right_iff, List.forall₂_same]
    intro entry _
    rfl
  refine Outcome.Agree.mapM pairs ?_
  rintro ⟨key, source⟩ _ rfl
  dsimp only
  rw [isRecord_currentRecord]
  split
  · exact .ok (Entry.renewed_ofRecord key.toText source)
  · exact .error _

/-! ### What loading does with entries -/

theorem ids_of_renewed (renewed : List.Forall₂ Entry.Renewed entries others) :
    others.map (·.id) = entries.map (·.id) := by
  induction renewed with
  | nil => rfl
  | cons first _ induction => rw [List.map_cons, List.map_cons, first.id, induction]

theorem readRoot_of_renewed (renewed : List.Forall₂ Entry.Renewed entries others) :
    readRoot (currentLayout top) others = readRoot top entries := by
  have listed : ∀ id, others.any (·.id == id) = entries.any (·.id == id) := by
    intro id
    have same := congrArg (List.any · (· == id)) (ids_of_renewed renewed)
    rwa [List.any_map, List.any_map] at same
  unfold readRoot
  rw [get_currentLayout (by decide)]
  dsimp only
  rw [listed]

theorem checkEntry_of_renewed {entry other : Entry} (renewed : entry.Renewed other)
    (known : List ItemId) : checkEntry known other = checkEntry known entry := by
  unfold checkEntry Entry.ownerReference?
  rw [renewed.id, renewed.owner?, renewed.references]

theorem checkReferences_of_renewed (renewed : List.Forall₂ Entry.Renewed entries others)
    (paths : List (ItemId × PathSummary)) :
    checkReferences others paths = checkReferences entries paths := by
  unfold checkReferences
  rw [ids_of_renewed renewed]
  refine congrArg _ (funext fun order => ?_)
  refine congrArg (List.forM order) (funext fun id => ?_)
  have pair := find?_of_pairs renewed (fun _ _ each => each.id) id
  generalize entries.find? (·.id == id) = entry, others.find? (·.id == id) = other at pair ⊢
  cases pair with
  | none => rfl
  | some each => exact checkEntry_of_renewed each _

theorem listings_of_renewed (renewed : List.Forall₂ Entry.Renewed entries others) :
    listings others = listings entries := by
  unfold listings
  induction renewed with
  | nil => rfl
  | cons first _ induction =>
      rw [List.mapM_cons, List.mapM_cons, induction, first.id, first.members, first.impls]

theorem parents_of_renewed {entry other : Entry} (renewed : entry.Renewed other) (root : ItemId)
    (listed : List (ItemId × List ItemId)) :
    parents root listed other = parents root listed entry := by
  unfold parents
  rw [renewed.id, renewed.owner?]

theorem itemOf_of_renewed {entry other : Entry} (renewed : entry.Renewed other) (root : ItemId)
    (listed : List (ItemId × List ItemId)) :
    Outcome.Agree Item.SameButSpelling (itemOf root listed entry) (itemOf root listed other) := by
  unfold itemOf
  rw [parents_of_renewed renewed]
  refine .bind_same fun found => ?_
  exact (renewed.item found).mapError _

theorem rootName_of_same {items otherItems : List Item}
    (same : List.Forall₂ Item.SameButSpelling items otherItems) (root : ItemId) :
    (otherItems.find? (·.id == root)).bind (·.properName?) =
      (items.find? (·.id == root)).bind (·.properName?) := by
  have pair := find?_of_pairs same (fun _ _ each => each.id) root
  generalize items.find? (·.id == root) = item, otherItems.find? (·.id == root) = other at pair ⊢
  cases pair with
  | none => rfl
  | some each => exact each.properName?

/-! ### Documents -/

/-- An index and its rewriting fail for the same cause or give the same document. -/
theorem ofValue_agree (top : Value) :
    Outcome.Agree Document.SameButSpelling (ofValue top) (ofValue (currentLayout top)) := by
  have version : readVersion (currentLayout top) = readVersion top := by
    unfold readVersion
    rw [get_currentLayout (by decide)]
  have index : (currentLayout top).get "index" = currentRecords (top.get "index") :=
    Value.get_alter rfl "index" top
  unfold ofValue
  rw [version, index, get_currentLayout (by decide), get_currentLayout (by decide)]
  refine .bind_same fun version => ?_
  cases top.get "index" with
  | scalar content => exact .error _
  | list elements => exact .error _
  | record index =>
      dsimp only [currentRecords]
      refine .bind_same fun paths => .bind_same fun crates => ?_
      refine (readEntries_agree index).bind fun entries others renewed => ?_
      rw [readRoot_of_renewed renewed, checkReferences_of_renewed renewed,
        listings_of_renewed renewed]
      refine .bind_same fun root => .bind_same fun _ => .bind_same fun listed => ?_
      refine (Outcome.Agree.mapM renewed fun entry other each =>
        itemOf_of_renewed each root listed).bind fun items otherItems same => ?_
      refine .ok ⟨rfl, rfl, ?_, rfl, rfl, same⟩
      exact congrArg (Option.getD · "crate") (rootName_of_same same root)

/-- Sources that hold an index in any layout and its rewriting are loaded alike. -/
theorem layouts_load_alike :
    (∀ top, Outcome.Agree Document.SameButSpelling (ofValue top) (ofValue (currentLayout top))) ∧
      ∀ {top : Value} {source other : Source}, source.Holds top → other.Holds (currentLayout top) →
        Outcome.Agree Document.SameButSpelling (load source) (load other) := by
  refine ⟨ofValue_agree, ?_⟩
  intro top source other holds otherHolds
  rw [load_of_holds holds, load_of_holds otherHolds]
  exact ofValue_agree top

/-- An index with two records in the older layout and a current one with an older name. -/
def olderText : String :=
  "\x7b\"format_version\":30,\"root\":0,\"index\":\x7b" ++
    "\"0\":\x7b\"kind\":\"import\",\"inner\":\x7b\"id\":1\x7d\x7d," ++
    "\"1\":\x7b\"parent\":0,\"kind\":\"method\",\"inner\":\x7b\"header\":[\"const\"]\x7d\x7d," ++
    "\"2\":\x7b\"parent\":0,\"inner\":\x7b\"impl\":\x7b\"synthetic\":1\x7d\x7d\x7d\x7d\x7d"

/-- The same index in the current layout. -/
def currentText : String :=
  "\x7b\"format_version\":30,\"root\":0,\"index\":\x7b" ++
    "\"0\":\x7b\"inner\":\x7b\"use\":\x7b\"id\":1\x7d\x7d\x7d," ++
    "\"1\":\x7b\"parent\":0,\"inner\":\x7b\"function\":\x7b\"header\":" ++
    "\x7b\"is_const\":true,\"is_async\":false,\"is_unsafe\":false\x7d\x7d\x7d\x7d," ++
    "\"2\":\x7b\"parent\":0,\"inner\":\x7b\"impl\":\x7b\"is_synthetic\":1\x7d\x7d\x7d\x7d\x7d"

/-- The record that the text of the older index holds. -/
def olderRecord : Value :=
  .ofFields [("format_version", .int 30), ("root", .int 0),
    ("index", .ofFields [
      ("0", .ofFields [("kind", .text "import"), ("inner", .ofFields [("id", .int 1)])]),
      ("1", .ofFields [("parent", .int 0), ("kind", .text "method"),
        ("inner", .ofFields [("header", .list [.text "const"])])]),
      ("2", .ofFields [("parent", .int 0),
        ("inner", .ofFields [("impl", .ofFields [("synthetic", .int 1)])])])])]

theorem holds_of_read {text : String} {top : Value} (read : Json.read text = .ok top)
    (isRecord : top.isRecord = true) : (Source.text text).Holds top :=
  ⟨text, rfl, readRecord_of_read read isRecord⟩

theorem olderText_holds : (Source.text olderText).Holds olderRecord :=
  holds_of_read (by decide +kernel) rfl

theorem currentText_holds : (Source.text currentText).Holds (currentLayout olderRecord) :=
  holds_of_read (by decide +kernel) rfl

theorem load_olderText : ∃ document, load (.text olderText) = .ok document ∧
    document.items.map (fun item => (item.rawKind, item.isConst, item.isSynthetic)) =
      [("import", false, false), ("method", true, false), ("impl", false, true)] := by
  have sorted : ItemId.sort ["0", "1", "2"] = .ok ["0", "1", "2"] :=
    @ItemId.sort_eq_self _ [(.number 0, "0"), (.number 1, "1"), (.number 2, "2")] rfl (by decide)
  rw [load_of_holds olderText_holds]
  refine ⟨⟨_, _, _, _, _, _⟩, ofValue_eq_ok_iff.mpr ⟨_, _, _,
    ⟨rfl, rfl, rfl, rfl, rfl, rfl, ?_, rfl, rfl, rfl⟩⟩, rfl⟩
  exact Outcome.bind_eq_ok_iff.mpr ⟨_, Outcome.liftM_integer_eq_ok_iff.mpr sorted, rfl⟩

theorem older_layout_loads_alike : ∃ document other,
    load (.text olderText) = .ok document ∧ load (.text currentText) = .ok other ∧
      document.SameButSpelling other ∧
      document.items.map (fun item => (item.rawKind, item.isConst, item.isSynthetic)) =
        [("import", false, false), ("method", true, false), ("impl", false, true)] := by
  obtain ⟨document, loaded, items⟩ := load_olderText
  obtain ⟨other, otherLoaded, same⟩ :=
    (layouts_load_alike.2 olderText_holds currentText_holds).exists_ok loaded
  exact ⟨document, other, loaded, otherLoaded, same, items⟩

end Index

end ApiCensus
