import ApiCensus.Proofs.References

/-!
# The check of references

Items take their references from the places of a record that the check looks at, so
that every identifier that an item of a loaded document mentions is known.  A refusal
for a dangling reference names a real one, of the first record in the order of
identifiers that has any.
-/

namespace ApiCensus

/-! ### Loaded documents -/

/-- The failure is a load error. -/
def Failure.IsLoad (failure : Failure) : Prop :=
  ∃ cause, failure = .load cause

/-- The failure is no dangling reference, unless that to the root. -/
def Failure.Undangling (failure : Failure) : Prop :=
  ∀ target referrer role, failure = .load (.dangling target referrer role) →
    referrer = "<document>"

/-- All identifiers that an item mentions. -/
def Item.mentions (item : Item) : List ItemId :=
  item.parents ++ item.children ++ item.impls ++ item.reexportTarget.toList ++
    item.traitId.toList ++ item.visibility.scope?.toList

namespace Index

open Outcome

/-- The value that a source holds. -/
def Source.Holds (source : Source) (top : Value) : Prop :=
  ∃ text, source.read = .ok text ∧ readRecord text = .ok top

/-- The identifier is a key of the index or of the path summaries. -/
def Knows (top : Value) (id : ItemId) : Prop :=
  (top.get "index").has id = true ∨ (top.get "paths").has id = true

/-- An item mentions its containers, and apart from them what its entry refers to. -/
theorem of_mem_mentions {root : ItemId} {listed : List (ItemId × List ItemId)} {entry : Entry}
    {item : Item} {references : List Reference}
    (success : itemOf root listed entry = .ok item)
    (referencesOk : entry.references = .ok references) {id : ItemId}
    (mentioned : id ∈ item.mentions) :
    id ∈ item.parents ∨ ∃ reference ∈ references, reference.target = id := by
  have yields := yields_of_itemOf_eq_ok success
  obtain ⟨members, membersOk, referencesOk⟩ := Outcome.bind_eq_ok_iff.mp referencesOk
  cases yields.membersOk.symm.trans membersOk
  cases referencesOk
  simp only [Item.mentions, yields.impls, yields.reexportTarget, yields.traitId,
    yields.visibility, List.mem_append, Option.mem_toList] at mentioned
  rcases mentioned with ((((inside | inside) | inside) | found) | found) | found
  · exact .inl inside
  · exact .inr ⟨⟨id, .member⟩, by simp [inside], rfl⟩
  · exact .inr ⟨⟨id, .implementation⟩, by simp [inside], rfl⟩
  · exact .inr ⟨⟨id, .reexportTarget⟩, by simp [found], rfl⟩
  · exact .inr ⟨⟨id, .implementedTrait⟩, by simp [found], rfl⟩
  · exact .inr ⟨⟨id, .visibilityScope⟩, by simp [found], rfl⟩

theorem isKnown_of_mentioned {source : Source} {document : Document}
    (loaded : load source = .ok document) {item : Item} (member : item ∈ document.items)
    {id : ItemId} (mentioned : id ∈ item.mentions) : document.isKnown id = true := by
  obtain ⟨text, top, _, topOk, valueOk⟩ := load_eq_ok_iff.mp loaded
  obtain ⟨index, entries, listed, stages⟩ := ofValue_eq_ok_iff.mp valueOk
  have distinct := stages.entries_nodup (readRecord_textKeyed topOk)
  obtain ⟨entry, entryMember, itemOk⟩ := Outcome.exists_of_mem_mapM stages.itemsOk member
  obtain ⟨references, referencesOk, leads⟩ := (of_checkEntry_eq_ok
    (checkEntry_of_checkReferences distinct stages.checkOk entryMember)).2
  rcases of_mem_mentions itemOk referencesOk mentioned with inside | ⟨reference, inside, rfl⟩
  · exact (coherent_of_load loaded).containersKnown item member id inside
  · rw [Document.isKnown_iff, stages.items_ids, ← List.mem_append]
    exact leads reference inside

/-! ### Failures before the check -/

/-- The parts of an index that are read before its identifiers are put in order. -/
structure Opening where
  version : Int
  paths : List (ItemId × PathSummary)
  crates : List (String × String)
  entries : List Entry
  root : ItemId

/-- Read the parts of a parsed index. -/
def opening (top : Value) : Except Failure Opening := do
  let version ← readVersion top
  match top.get "index" with
  | .record index =>
      let paths ← readPaths ((top.get "paths").orElse Entry.noPayload)
      let crates ← readCrates ((top.get "external_crates").orElse Entry.noPayload)
      let entries ← readEntries index
      let root ← readRoot top entries
      return { version, paths, crates, entries, root }
  | _ => throw (.load .missingIndex)

/-- Check the references and make the items. -/
def Opening.document (opened : Opening) : Except Failure Document := do
  checkReferences opened.entries opened.paths
  let listings ← listings opened.entries
  let items ← opened.entries.mapM (itemOf opened.root listings)
  let rootName := (items.find? (·.id == opened.root)).bind (·.properName?)
  return {
    formatVersion := opened.version
    root := opened.root
    crateName := rootName.getD "crate"
    items
    paths := opened.paths
    externalCrates := opened.crates }

theorem ofValue_eq (top : Value) : ofValue top = opening top >>= Opening.document := by
  unfold ofValue opening
  rw [bind_assoc]
  congr 1
  funext version
  cases top.get "index" with
  | record index =>
      simp only [bind_assoc, pure_bind]
      rfl
  | _ => rfl

theorem of_opening_eq_ok {top : Value} {opened : Opening} (success : opening top = .ok opened) :
    ∃ index, top.get "index" = .record index ∧
      readPaths ((top.get "paths").orElse Entry.noPayload) = .ok opened.paths ∧
      readEntries index = .ok opened.entries := by
  obtain ⟨version, _, rest⟩ := bind_eq_ok_iff.mp success
  split at rest
  · rename_i index indexOk
    obtain ⟨paths, pathsOk, rest⟩ := bind_eq_ok_iff.mp rest
    obtain ⟨crates, _, rest⟩ := bind_eq_ok_iff.mp rest
    obtain ⟨entries, entriesOk, rest⟩ := bind_eq_ok_iff.mp rest
    obtain ⟨root, _, same⟩ := bind_eq_ok_iff.mp rest
    cases same
    exact ⟨index, indexOk, pathsOk, entriesOk⟩
  · cases rest

/-- What can go wrong before references are checked: a load error for something else. -/
def Early (failure : Failure) : Prop :=
  failure.IsLoad ∧ failure.Undangling

theorem early_load {cause : LoadError}
    (other : ∀ target referrer role, cause ≠ .dangling target referrer role) :
    Early (.load cause) := by
  refine ⟨⟨cause, rfl⟩, ?_⟩
  intro target referrer role same
  exact absurd (Failure.load.inj same) (other target referrer role)

theorem failsAs_read (source : Source) : FailsAs Early source.read := by
  cases source with
  | text content => exact failsAs_ok content
  | bytes content =>
      intro failure failed
      obtain ⟨cause, _, rfl⟩ := mapError_eq_error_iff.mp failed
      exact early_load nofun

theorem failsAs_readVersion (top : Value) : FailsAs Early (readVersion top) := by
  unfold readVersion
  split
  · split
    · exact failsAs_ok _
    · exact failsAs_error (early_load nofun)
  · exact failsAs_error (early_load nofun)

theorem failsAs_readPaths (raw : Value) : FailsAs Early (readPaths raw) := by
  unfold readPaths
  split
  · apply failsAs_mapM
    intro entry _
    apply failsAs_bind
    · unfold readSummary
      split
      · exact failsAs_ok _
      · exact failsAs_error (early_load nofun)
    · exact fun _ _ => failsAs_ok _
  · exact failsAs_error (early_load nofun)

theorem failsAs_readCrates (raw : Value) : FailsAs Early (readCrates raw) := by
  unfold readCrates
  split
  · exact failsAs_ok _
  · exact failsAs_error (early_load nofun)

theorem failsAs_readEntries (index : List (Scalar × Value)) :
    FailsAs Early (readEntries index) := by
  apply failsAs_mapM
  intro entry _
  dsimp only
  split
  · exact failsAs_ok _
  · exact failsAs_error (early_load nofun)

theorem failsAs_readRoot (top : Value) (entries : List Entry) :
    FailsAs Early (readRoot top entries) := by
  unfold readRoot
  dsimp only
  split
  · exact failsAs_error (early_load nofun)
  · split
    · exact failsAs_ok _
    · refine failsAs_error ⟨⟨_, rfl⟩, ?_⟩
      rintro target referrer role ⟨⟩
      rfl

theorem failsAs_opening (top : Value) : FailsAs Early (opening top) := by
  unfold opening
  apply failsAs_bind (failsAs_readVersion top)
  intro version _
  split
  · apply failsAs_bind (failsAs_readPaths _)
    intro paths _
    apply failsAs_bind (failsAs_readCrates _)
    intro crates _
    apply failsAs_bind (failsAs_readEntries _)
    intro entries _
    apply failsAs_bind (failsAs_readRoot top entries)
    exact fun _ _ => failsAs_ok _
  · exact failsAs_error (early_load nofun)

/-- What can go wrong when a text is read. -/
theorem of_readRecord_eq_error {text : String} {failure : Failure}
    (failed : readRecord text = .error failure) : Early failure ∨
      (∃ cause, failure = .invalid (.integer cause) ∧ Json.read text = .error (.integer cause)) ∨
      failure = .tooDeep ∧ Json.read text = .error .tooDeep := by
  rcases bind_eq_error_iff.mp failed with failed | ⟨value, _, failed⟩
  · obtain ⟨reason, failed, same⟩ := mapError_eq_error_iff.mp failed
    cases reason with
    | malformed cause =>
        subst same
        exact .inl (early_load nofun)
    | integer cause => exact .inr (.inl ⟨cause, same.symm, failed⟩)
    | tooDeep => exact .inr (.inr ⟨same.symm, failed⟩)
  · split at failed
    · cases failed
    · cases failed
      exact .inl (early_load nofun)

/-! ### Dangling references -/

theorem listings_ne_load {entries : List Entry} {cause : LoadError} :
    listings entries ≠ .error (.load cause) := by
  intro failed
  obtain ⟨entry, _, failed⟩ := Outcome.exists_of_mapM_eq_error failed
  rcases Outcome.bind_eq_error_iff.mp failed with failed | ⟨_, _, impossible⟩
  · exact Outcome.liftM_shape_ne_load failed
  · cases impossible

theorem itemOf_ne_load {root : ItemId} {listed : List (ItemId × List ItemId)} {entry : Entry}
    {cause : LoadError} : itemOf root listed entry ≠ .error (.load cause) := by
  intro failed
  rcases Outcome.bind_eq_error_iff.mp failed with unsorted | ⟨_, _, failed⟩
  · unfold parents at unsorted
    split at unsorted
    · cases unsorted
    · split at unsorted
      · cases unsorted
      · exact Outcome.liftM_integer_ne_load unsorted
  · exact Outcome.liftM_shape_ne_load failed

/-- A dangling reference that is not the root is found by the check of references. -/
theorem of_load_eq_dangling {source : Source} {target referrer : ItemId} {role : Role}
    (refused : load source = .error (.load (.dangling target referrer role)))
    (inside : referrer ≠ "<document>") :
    ∃ top opened, source.Holds top ∧ opening top = .ok opened ∧
      checkReferences opened.entries opened.paths =
        .error (.load (.dangling target referrer role)) := by
  have notEarly : ¬ Early (.load (.dangling target referrer role)) :=
    fun early => inside (early.2 target referrer role rfl)
  rcases bind_eq_error_iff.mp refused with failed | ⟨text, textOk, failed⟩
  · exact absurd (failsAs_read source _ failed) notEarly
  rcases bind_eq_error_iff.mp failed with failed | ⟨top, topOk, failed⟩
  · rcases of_readRecord_eq_error failed with early | ⟨_, same, _⟩ | ⟨same, _⟩
    · exact absurd early notEarly
    · cases same
    · cases same
  rw [ofValue_eq] at failed
  rcases bind_eq_error_iff.mp failed with failed | ⟨opened, openedOk, failed⟩
  · exact absurd (failsAs_opening top _ failed) notEarly
  refine ⟨top, opened, ⟨text, textOk, topOk⟩, openedOk, ?_⟩
  rcases bind_eq_error_iff.mp failed with failed | ⟨_, _, failed⟩
  · exact failed
  rcases bind_eq_error_iff.mp failed with failed | ⟨listed, _, failed⟩
  · exact absurd failed listings_ne_load
  rcases bind_eq_error_iff.mp failed with failed | ⟨items, _, impossible⟩
  · obtain ⟨entry, _, failed⟩ := exists_of_mapM_eq_error failed
    exact absurd failed itemOf_ne_load
  · cases impossible

theorem of_checkReference_eq_dangling {known : List ItemId} {referrer other target : ItemId}
    {role : Role} {reference : Reference}
    (failed : checkReference known referrer reference =
      .error (.load (.dangling target other role))) :
    other = referrer ∧ target ∉ known ∧ reference = ⟨target, role⟩ := by
  unfold checkReference at failed
  split at failed
  · cases failed
  · rename_i absent
    cases failed
    exact ⟨rfl, by simpa using absent, rfl⟩

theorem of_checkEntry_eq_dangling {known : List ItemId} {entry : Entry}
    {target referrer : ItemId} {role : Role}
    (failed : checkEntry known entry = .error (.load (.dangling target referrer role))) :
    referrer = entry.id ∧ target ∉ known ∧
      (entry.ownerReference? = some ⟨target, role⟩ ∨
        ∃ references, entry.references = .ok references ∧ ⟨target, role⟩ ∈ references) := by
  rcases Outcome.bind_eq_error_iff.mp failed with ownerFailed | ⟨_, _, failed⟩
  · obtain ⟨before, reference, after, split, _, refused⟩ :=
      Outcome.split_of_forM_eq_error ownerFailed
    obtain ⟨same, unknown, rfl⟩ := of_checkReference_eq_dangling refused
    have member : ⟨target, role⟩ ∈ entry.ownerReference?.toList := by simp [split]
    exact ⟨same, unknown, .inl (Option.mem_toList.mp member)⟩
  · rcases Outcome.bind_eq_error_iff.mp failed with unshaped | ⟨references, referencesOk, failed⟩
    · exact absurd unshaped Outcome.liftM_shape_ne_load
    · obtain ⟨before, reference, after, split, _, refused⟩ :=
        Outcome.split_of_forM_eq_error failed
      obtain ⟨same, unknown, rfl⟩ := of_checkReference_eq_dangling refused
      exact ⟨same, unknown, .inr ⟨references, Outcome.liftM_shape_eq_ok_iff.mp referencesOk,
        by simp [split]⟩⟩

/-- The check goes through the entries in the order of identifiers, so that all entries
before the one that it stops at have passed. -/
theorem of_checkReferences_eq_dangling {entries : List Entry}
    {paths : List (ItemId × PathSummary)} (distinct : (entries.map (·.id)).Nodup)
    {target referrer : ItemId} {role : Role}
    (failed : checkReferences entries paths = .error (.load (.dangling target referrer role))) :
    ∃ entry ∈ entries,
      checkEntry (entries.map (·.id) ++ paths.map (·.1)) entry =
        .error (.load (.dangling target referrer role)) ∧
      ∀ other ∈ entries, ItemId.Precedes other.id entry.id →
        checkEntry (entries.map (·.id) ++ paths.map (·.1)) other = .ok () := by
  rcases Outcome.bind_eq_error_iff.mp failed with unsorted | ⟨order, orderOk, failed⟩
  · exact absurd unsorted Outcome.liftM_integer_ne_load
  have sorted := Outcome.liftM_integer_eq_ok_iff.mp orderOk
  obtain ⟨before, id, after, rfl, passed, refused⟩ := Outcome.split_of_forM_eq_error failed
  split at refused
  · rename_i entry found
    have sameId : entry.id = id := by simpa using List.find?_some found
    refine ⟨entry, List.mem_of_find?_eq_some found, refused, ?_⟩
    intro other member precedes
    have position : other.id ∈ before ++ id :: after :=
      (ItemId.sort_perm sorted).mem_iff.mpr (List.mem_map_of_mem member)
    -- What comes first in the order of identifiers cannot stand behind the refused entry.
    rcases List.mem_append.mp position with earlier | later
    · have checked := passed other.id earlier
      have otherFound : entries.find? (·.id == other.id) = some other :=
        find?_eq_some_of_distinct distinct member
      rw [otherFound] at checked
      exact checked
    · have ordered := (List.pairwise_append.mp (ItemId.sort_pairwise sorted)).2.1
      rw [sameId] at precedes
      rcases List.mem_cons.mp later with same | behind
      · rw [same] at precedes
        exact absurd precedes (ItemId.Precedes.irrefl id)
      · exact absurd precedes ((List.pairwise_cons.mp ordered).1 other.id behind)
  · cases refused

/-! ### Entries of a parsed index -/

theorem exists_record_of_mem {index : List (Scalar × Value)} {entries : List Entry}
    (keyed : Value.TextKeyed (.record index)) (success : readEntries index = .ok entries)
    {entry : Entry} (member : entry ∈ entries) :
    ∃ record, (Value.record index).get? entry.id = some record ∧
      entry = Entry.ofRecord entry.id record := by
  obtain ⟨⟨key, record⟩, inside, entryOk⟩ := Outcome.exists_of_mem_mapM success member
  dsimp only at entryOk
  split at entryOk
  · cases entryOk
    have isText := keyed.mem_keys inside
    dsimp only at isText
    refine ⟨record, keyed.get?_eq_some_iff.mpr ?_, rfl⟩
    rw [isText] at inside
    exact inside
  · cases entryOk

theorem exists_entry_of_get? {index : List (Scalar × Value)} {entries : List Entry}
    (keyed : Value.TextKeyed (.record index)) (success : readEntries index = .ok entries)
    {id : ItemId} {record : Value} (found : (Value.record index).get? id = some record) :
    Entry.ofRecord id record ∈ entries := by
  obtain ⟨entry, member, entryOk⟩ :=
    Outcome.exists_mem_of_mapM success (keyed.get?_eq_some_iff.mp found)
  dsimp only at entryOk
  split at entryOk
  · cases entryOk
    exact member
  · cases entryOk

theorem mem_paths_iff {raw : Value} {paths : List (ItemId × PathSummary)}
    (keyed : raw.TextKeyed) (success : readPaths raw = .ok paths) {id : ItemId} :
    id ∈ paths.map (·.1) ↔ raw.has id = true := by
  unfold readPaths at success
  split at success
  · rw [keyed.has_iff, Outcome.map_eq_of_mapM success (·.1.toText) (·.1)]
    rintro ⟨key, summary⟩ _ path pathOk
    obtain ⟨_, _, same⟩ := Outcome.bind_eq_ok_iff.mp pathOk
    cases same
    rfl
  · cases success

/-- The identifiers that references may lead to are those that the index knows. -/
theorem mem_known_iff {top : Value} {index : List (Scalar × Value)} {entries : List Entry}
    {paths : List (ItemId × PathSummary)} (keyed : top.TextKeyed)
    (indexOk : top.get "index" = .record index)
    (pathsOk : readPaths ((top.get "paths").orElse Entry.noPayload) = .ok paths)
    (entriesOk : readEntries index = .ok entries) {id : ItemId} :
    id ∈ entries.map (·.id) ++ paths.map (·.1) ↔ Knows top id := by
  have indexKeyed := keyed.get "index"
  rw [indexOk] at indexKeyed
  have samePaths : ((top.get "paths").orElse Entry.noPayload).has id =
      (top.get "paths").has id := by
    rw [Value.has, Value.has, Value.get?_orElse_noPayload]
  rw [List.mem_append, Knows, indexOk, indexKeyed.has_iff, readEntries_ids entriesOk,
    mem_paths_iff (keyed.get "paths").orElse_noPayload pathsOk, samePaths]

/-- What the record of an entry that passed the check refers to is known. -/
theorem knows_of_checkEntry {top : Value} {index : List (Scalar × Value)} {entries : List Entry}
    {paths : List (ItemId × PathSummary)} (keyed : top.TextKeyed)
    (indexOk : top.get "index" = .record index)
    (pathsOk : readPaths ((top.get "paths").orElse Entry.noPayload) = .ok paths)
    (entriesOk : readEntries index = .ok entries) {id : ItemId} {record : Value}
    (checked : checkEntry (entries.map (·.id) ++ paths.map (·.1)) (Entry.ofRecord id record) =
      .ok ())
    {role : Role} {target : ItemId} (refers : Refers record role target) : Knows top target := by
  obtain ⟨owned, references, referencesOk, leads⟩ := of_checkEntry_eq_ok checked
  apply (mem_known_iff keyed indexOk pathsOk entriesOk).mp
  rcases List.mem_append.mp (Entry.mem_references_of_refers referencesOk refers) with owner | other
  · exact owned _ (Option.mem_toList.mp owner)
  · exact leads _ other

/-- A dangling reference is a real one and leads to no known identifier, and the records
before that of the referrer have none. -/
structure Dangles (top : Value) (target referrer : ItemId) (role : Role) : Prop where
  unknown : ¬ Knows top target
  referred : ∃ record, (top.get "index").get? referrer = some record ∧ Refers record role target
  first : ∀ other record, (top.get "index").get? other = some record →
    ItemId.Precedes other referrer → ∀ role id, Refers record role id → Knows top id

theorem dangles_of_load {source : Source} {target referrer : ItemId} {role : Role}
    (refused : load source = .error (.load (.dangling target referrer role)))
    (inside : referrer ≠ "<document>") :
    ∃ top, source.Holds top ∧ Dangles top target referrer role := by
  obtain ⟨top, opened, holds, openedOk, failed⟩ := of_load_eq_dangling refused inside
  obtain ⟨index, indexOk, pathsOk, entriesOk⟩ := of_opening_eq_ok openedOk
  obtain ⟨text, _, topOk⟩ := id holds
  have keyed := readRecord_textKeyed topOk
  have indexKeyed := keyed.get "index"
  rw [indexOk] at indexKeyed
  have distinct := readEntries_nodup indexKeyed entriesOk
  obtain ⟨entry, member, refusedEntry, passed⟩ := of_checkReferences_eq_dangling distinct failed
  obtain ⟨rfl, unknown, referred⟩ := of_checkEntry_eq_dangling refusedEntry
  refine ⟨top, holds, ?_, ?_, ?_⟩
  · intro known
    exact unknown ((mem_known_iff keyed indexOk pathsOk entriesOk).mpr known)
  · obtain ⟨record, found, same⟩ := exists_record_of_mem indexKeyed entriesOk member
    refine ⟨record, indexOk ▸ found, ?_⟩
    rw [same] at referred
    rcases referred with owner | ⟨references, referencesOk, reference⟩
    · obtain ⟨present, reference⟩ := Entry.ownerReference?_eq_some_iff.mp owner
      cases reference
      exact .owner present
    · exact Entry.refers_of_mem_references referencesOk reference
  · intro other record found precedes otherRole id refers
    rw [indexOk] at found
    have otherMember := exists_entry_of_get? indexKeyed entriesOk found
    exact knows_of_checkEntry keyed indexOk pathsOk entriesOk
      (passed _ otherMember precedes) refers

/-- In a loaded document the root is an item, and all identifiers that items mention are
keys of the index or of the path summaries.  A refusal for a dangling reference of a
record names a reference that the record really has and that leads to no key, while all
references of the records before it lead to keys. -/
theorem references_checked (source : Source) :
    (∀ document, load source = .ok document → document.root ∈ document.ids ∧
      ∀ item ∈ document.items, ∀ id ∈ item.mentions,
        id ∈ document.ids ∨ id ∈ document.paths.map (·.1)) ∧
    ∀ target referrer role, load source = .error (.load (.dangling target referrer role)) →
      referrer ≠ "<document>" → ∃ top, source.Holds top ∧ Dangles top target referrer role := by
  constructor
  · intro document loaded
    refine ⟨(coherent_of_load loaded).rooted, ?_⟩
    intro item member id mentioned
    exact Document.isKnown_iff.mp (isKnown_of_mentioned loaded member mentioned)
  · intro target referrer role refused inside
    exact dangles_of_load refused inside

/-- An index in which the second and the third record have stray references. -/
def strayText : String :=
  "\x7b\"format_version\":30,\"root\":0,\"index\":\x7b\"0\":\x7b\x7d," ++
    "\"1\":\x7b\"kind\":\"module\",\"inner\":\x7b\"items\":[2,7]\x7d\x7d," ++
    "\"2\":\x7b\"parent\":8\x7d\x7d\x7d"

/-- The record that the text of the index with stray references holds. -/
def strayRecord : Value :=
  .ofFields [("format_version", .int 30), ("root", .int 0),
    ("index", .ofFields [("0", .record []),
      ("1", .ofFields [("kind", .text "module"),
        ("inner", .ofFields [("items", .list [.int 2, .int 7])])]),
      ("2", .ofFields [("parent", .int 8)])])]

theorem read_strayText : Json.read strayText = .ok strayRecord := by
  decide +kernel

theorem sort_stray : ItemId.sort ["0", "1", "2"] = .ok ["0", "1", "2"] :=
  @ItemId.sort_eq_self _ [(.number 0, "0"), (.number 1, "1"), (.number 2, "2")] rfl (by decide)

theorem load_strayText : load (.text strayText) = .error (.load (.dangling "7" "1" .member)) := by
  have topOk : readRecord strayText = .ok strayRecord := by
    unfold readRecord
    rw [read_strayText]
    rfl
  refine Outcome.bind_eq_error_iff.mpr (.inr ⟨strayText, rfl, ?_⟩)
  refine Outcome.bind_eq_error_iff.mpr (.inr ⟨strayRecord, topOk, ?_⟩)
  refine Outcome.bind_eq_error_iff.mpr (.inr ⟨30, rfl, ?_⟩)
  refine Outcome.bind_eq_error_iff.mpr (.inr ⟨_, rfl, ?_⟩)
  refine Outcome.bind_eq_error_iff.mpr (.inr ⟨_, rfl, ?_⟩)
  refine Outcome.bind_eq_error_iff.mpr (.inr ⟨_, rfl, ?_⟩)
  refine Outcome.bind_eq_error_iff.mpr (.inr ⟨_, rfl, ?_⟩)
  refine Outcome.bind_eq_error_iff.mpr (.inl ?_)
  exact Outcome.bind_eq_error_iff.mpr
    (.inr ⟨_, Outcome.liftM_integer_eq_ok_iff.mpr sort_stray, rfl⟩)

/-- The references of the tangled index, and the stray reference that is found first. -/
theorem stray_reference_found :
    (∃ document, load (.text tangledText) = .ok document ∧ document.root ∈ document.ids ∧
      ∀ item ∈ document.items, ∀ id ∈ item.mentions,
        id ∈ document.ids ∨ id ∈ document.paths.map (·.1)) ∧
    load (.text strayText) = .error (.load (.dangling "7" "1" .member)) ∧
    ∃ top, (Source.text strayText).Holds top ∧ Dangles top "7" "1" .member := by
  obtain ⟨document, loaded, _⟩ := load_tangledText
  exact ⟨⟨document, loaded, (references_checked _).1 document loaded⟩, load_strayText,
    (references_checked _).2 "7" "1" .member load_strayText (by decide)⟩

end Index

end ApiCensus
