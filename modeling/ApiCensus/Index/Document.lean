import ApiCensus.Index.Item

/-!
# Documents

A loaded index: its items in the order of the document, summaries of the paths of
items that it refers to, and the names of the crates these belong to.
-/

namespace ApiCensus

/-- What an index tells about an item by its path alone. -/
structure PathSummary where
  crateId : String
  segments : List String
  kind : String
deriving DecidableEq, Repr

/-- A loaded index. -/
structure Document where
  formatVersion : Int
  root : ItemId
  crateName : String
  items : List Item
  paths : List (ItemId × PathSummary)
  externalCrates : List (String × String)
deriving DecidableEq, Repr

namespace Document

/-- The item with an identifier. -/
def item? (document : Document) (id : ItemId) : Option Item :=
  document.items.find? (·.id == id)

/-- The path summary of an identifier. -/
def summary? (document : Document) (id : ItemId) : Option PathSummary :=
  document.paths.lookup id

/-- Whether the index defines the identifier. -/
def isLocal (document : Document) (id : ItemId) : Bool :=
  (document.item? id).isSome

/-- Whether the identifier is known by its path alone. -/
def isExternal (document : Document) (id : ItemId) : Bool :=
  !document.isLocal id && (document.summary? id).isSome

/-- Whether the identifier is known at all. -/
def isKnown (document : Document) (id : ItemId) : Bool :=
  document.isLocal id || (document.summary? id).isSome

/-- The crate of the root module. -/
def localCrateId (document : Document) : String :=
  ((document.item? document.root).map (·.crateId)).getD ""

/-- The crate number of an identifier. -/
def crateId? (document : Document) (id : ItemId) : Option String :=
  match document.item? id with
  | some item => some item.crateId
  | none => (document.summary? id).map (·.crateId)

/-- The name of the crate that an identifier belongs to. -/
def crateOf (document : Document) (id : ItemId) : String :=
  match document.crateId? id with
  | none => document.crateName
  | some crateId =>
      if crateId = document.localCrateId then document.crateName
      else (document.externalCrates.lookup crateId).getD crateId

/-- The identifiers of all items. -/
def ids (document : Document) : List ItemId :=
  document.items.map (·.id)

/-- The identifiers of all items in their order. -/
def sortedIds (document : Document) : Except Number.IntegerError (List ItemId) :=
  ItemId.sort document.ids

/-- Fewer items are unseen once an item of the document has been seen. -/
theorem length_filter_unseen_lt {document : Document} {seen : List ItemId} {id : ItemId}
    {item : Item} (found : document.item? id = some item)
    (fresh : seen.contains id = false) :
    (document.items.filter fun item => !(id :: seen).contains item.id).length <
      (document.items.filter fun item => !seen.contains item.id).length := by
  have member := List.mem_of_find?_eq_some found
  have same : item.id = id := by simpa using List.find?_some found
  have split : (fun item : Item => !(id :: seen).contains item.id) =
      fun item => (!(item.id == id)) && !seen.contains item.id := by
    funext other
    rw [List.contains_cons, Bool.not_or]
  rw [split, ← List.filter_filter]
  refine List.length_filter_lt_length_iff_exists.mpr ⟨item, ?_, ?_⟩
  · exact List.mem_filter.mpr ⟨member, by rw [same, fresh]; rfl⟩
  · simp [same]

end Document

end ApiCensus
