import ApiCensus.Failure
import ApiCensus.Index.Document
import ApiCensus.Index.Entry
import ApiCensus.Json.Writer

/-!
# Loading an index

An index is read, its version and its parts are checked, every reference is
checked to lead to an item or to a path summary, and the entries become items.

The first complaint counts: bytes, syntax, version, index, paths, crates, entries
in document order, root, references in the order of identifiers, and last the
fields of the items in document order.
-/

namespace ApiCensus.Index

/-- Where an index comes from: a text, or bytes that have to be UTF-8. -/
inductive Source
  | text (content : String)
  | bytes (content : List UInt8)

/-- The text of a source. -/
def Source.read : Source → Except Failure String
  | .text content => .ok content
  | .bytes content =>
      (Text.Utf8.decode content).mapError fun cause => .load (.invalidBytes cause)

/-- Read a JSON text whose top level is a record. -/
def readRecord (text : String) : Except Failure Value := do
  let value ← (Json.read text).mapError fun
    | .malformed cause => .load (.malformedJson cause)
    | .integer cause => .invalid (.integer cause)
    | .tooDeep => .tooDeep
  if value.isRecord then return value else throw (.load .notARecord)

/-- The format version, if it is supported. -/
def readVersion (top : Value) : Except Failure Int :=
  match top.get "format_version" with
  | .int version =>
      if minFormatVersion ≤ version && version ≤ maxFormatVersion then .ok version
      else .error (.load (.versionOutOfRange version))
  | found => .error (.load (.versionNotInteger found))

/-- The path summary of an identifier. -/
def readSummary (id : ItemId) (summary : Value) : Except Failure PathSummary :=
  match summary.get "path" with
  | .list segments =>
      .ok {
        crateId := ((summary.get? "crate_id").getD (.int 0)).toText
        segments := segments.map Value.toText
        kind := ((summary.get "kind").orElse (.text "")).toText }
  | _ => .error (.load (.malformedSummary id))

/-- The path summaries of an index. -/
def readPaths (raw : Value) : Except Failure (List (ItemId × PathSummary)) :=
  match raw with
  | .record entries =>
      entries.mapM fun (key, summary) => do
        return (key.toText, ← readSummary key.toText summary)
  | _ => .error (.load .pathsNotARecord)

/-- The names of external crates. -/
def readCrates (raw : Value) : Except Failure (List (String × String)) :=
  match raw with
  | .record entries =>
      .ok (entries.map fun (key, crate) =>
        (key.toText, (if crate.isRecord then crate.get "name" else crate).toText))
  | _ => .error (.load .cratesNotARecord)

/-- The entries of an index. -/
def readEntries (entries : List (Scalar × Value)) : Except Failure (List Entry) :=
  entries.mapM fun (key, source) =>
    if source.isRecord then .ok (Entry.ofRecord key.toText source)
    else .error (.load (.entryNotARecord key.toText))

/-- The identifier of the crate root, which must be an entry. -/
def readRoot (top : Value) (entries : List Entry) : Except Failure ItemId :=
  let root := top.get "root"
  if root.isNull then .error (.load .missingRoot)
  else if entries.any (·.id == root.toText) then .ok root.toText
  else .error (.load (.dangling root.toText "<document>" .crateRoot))

/-- A reference must lead to an entry or to a path summary. -/
def checkReference (known : List ItemId) (referrer : ItemId) (reference : Reference) :
    Except Failure Unit :=
  if known.contains reference.target then .ok ()
  else .error (.load (.dangling reference.target referrer reference.role))

/-- Check the references of an entry, that to its owner first. -/
def checkEntry (known : List ItemId) (entry : Entry) : Except Failure Unit := do
  entry.ownerReference?.toList.forM (checkReference known entry.id)
  let references ← entry.references
  references.forM (checkReference known entry.id)

/-- Check the references of all entries in the order of identifiers. -/
def checkReferences (entries : List Entry) (paths : List (ItemId × PathSummary)) :
    Except Failure Unit := do
  let known := entries.map (·.id) ++ paths.map (·.1)
  let order ← ItemId.sort (entries.map (·.id))
  order.forM fun id =>
    match entries.find? (·.id == id) with
    | some entry => checkEntry known entry
    | none => .ok ()

/-- The members and impl blocks that each entry lists. -/
def listings (entries : List Entry) : Except Failure (List (ItemId × List ItemId)) :=
  entries.mapM fun entry => do return (entry.id, (← entry.members) ++ entry.impls)

/-- The containers of an entry: none for the root, the owner that it names, or
else all entries that list it, where those with equal keys stay in the order of the
index. -/
def parents (root : ItemId) (listings : List (ItemId × List ItemId)) (entry : Entry) :
    Except Failure (List ItemId) :=
  if entry.id = root then .ok []
  else
    match entry.owner? with
    | some owner => .ok [owner]
    | none => do
        let owners := listings.filter fun listing => listing.2.contains entry.id
        ItemId.sort (owners.map (·.1))

/-- Qualifiers of a function. -/
structure Qualifiers where
  isConst : Bool
  isAsync : Bool
  isUnsafe : Bool

/-- The truth of the first field that is present. -/
def flag (record : Value) (name older : String) : Bool :=
  ((record.get? name).getD ((record.get? older).getD (.bool false))).isTruthy

/-- The qualifiers in the header of a function, given by fields or as a list. -/
def qualifiers (body : Value) : Except ShapeError Qualifiers :=
  match (body.get "header").orElse Entry.noPayload with
  | .list words =>
      let lists (word : String) := words.any fun value => value.toText == word
      .ok ⟨lists "const", lists "async", lists "unsafe"⟩
  | header => do
      let header ← header.asRecord
      return ⟨flag header "is_const" "const_", flag header "is_async" "async_",
        flag header "is_unsafe" "unsafe_"⟩

/-- The qualifiers of an entry; only functions, traits and impl blocks have any. -/
def entryQualifiers (entry : Entry) : Except ShapeError Qualifiers :=
  match entry.kind with
  | .function => qualifiers entry.body
  | .trait | .impl =>
      .ok ⟨false, false, ((entry.body.get? "is_unsafe").getD (.bool false)).isTruthy⟩
  | _ => .ok ⟨false, false, false⟩

/-- The text of an attribute; a structured one without a text is written as JSON. -/
def attrText (attr : Value) : String :=
  match attr with
  | .text content => content
  | _ =>
      match attr.get "other" with
      | .text content => content
      | _ => Json.write attr

/-- The attributes of an entry. -/
def attrs (source : Value) : Except ShapeError (List String) := do
  let attrs ← ((source.get "attrs").orElse (.list [])).members
  return attrs.map attrText

/-- Deprecation metadata. -/
def deprecation (raw : Value) : Option Deprecation :=
  let textOf (value : Value) := if value.isNull then none else some value.toText
  if raw.isRecord then some ⟨textOf (raw.get "since"), textOf (raw.get "note")⟩ else none

/-- A generic parameter; what is no record is none. -/
def genericParam? (raw : Value) : Option GenericParam :=
  if raw.isRecord then
    let (kind, detail) := match raw.get "kind" with
      | .record ((kind, detail) :: _) => (kind.toText, detail)
      | other => ((other.orElse (.text "type")).toText, .null)
    some {
      name := ((raw.get "name").orElse (.text "")).toText
      kind
      isSynthetic := flag detail "is_synthetic" "synthetic" }
  else none

/-- The generic parameters of a payload. -/
def generics (payload : Value) : Except ShapeError (List GenericParam) := do
  let generics := payload.get "generics"
  if generics.isRecord then
    let params ← ((generics.get "params").orElse (.list [])).members
    return params.filterMap genericParam?
  else return []

/-- The name of a trait. -/
def traitName? (trait : Value) : Option String :=
  let name := (trait.get "path").orElse (trait.get "name")
  if name.isTruthy then some name.toText else none

/-- The item of an entry. -/
def item (parents : List ItemId) (entry : Entry) : Except ShapeError Item := do
  let body := entry.body
  let source := entry.source
  let ownName := source.get "name"
  let name := if ownName.isNull && entry.kind = .reexport then body.get "name" else ownName
  let qualifiers ← entryQualifiers entry
  let children ← entry.members
  let attrs ← attrs source
  let generics ← generics entry.payload
  return {
    id := entry.id
    kind := entry.kind
    rawKind := entry.tag
    name := if name.isNull then none else some name.toText
    crateId := ((source.get? "crate_id").getD (.int 0)).toText
    visibility := entry.visibility
    parents
    children
    attrs
    deprecation := deprecation (source.get "deprecation")
    generics
    hasDocs := !(Text.trim ((source.get "docs").orElse (.text "")).toText).isEmpty
    reexportTarget := entry.reexportTarget?
    traitId := entry.traitId?
    traitName := entry.trait?.bind traitName?
    impls := entry.impls
    hasBody := ((body.get? "has_body").getD (.bool true)).isTruthy
    isConst := qualifiers.isConst
    isAsync := qualifiers.isAsync
    isUnsafe := qualifiers.isUnsafe
    isSynthetic := flag body "is_synthetic" "synthetic"
    isBlanket := !(body.get "blanket_impl").isNull
    inner := body }

/-- The item of an entry of an index, with its containers. -/
def itemOf (root : ItemId) (listings : List (ItemId × List ItemId)) (entry : Entry) :
    Except Failure Item := do
  let parents ← parents root listings entry
  let item ← item parents entry
  return item

/-- The document of a parsed index. -/
def ofValue (top : Value) : Except Failure Document := do
  let version ← readVersion top
  match top.get "index" with
  | .record index =>
      let paths ← readPaths ((top.get "paths").orElse Entry.noPayload)
      let crates ← readCrates ((top.get "external_crates").orElse Entry.noPayload)
      let entries ← readEntries index
      let root ← readRoot top entries
      checkReferences entries paths
      let listings ← listings entries
      let items ← entries.mapM (itemOf root listings)
      let rootName := (items.find? (·.id == root)).bind (·.properName?)
      return {
        formatVersion := version
        root
        crateName := rootName.getD "crate"
        items
        paths
        externalCrates := crates }
  | _ => throw (.load .missingIndex)

/-- Load an index. -/
def load (source : Source) : Except Failure Document := do
  let text ← source.read
  let top ← readRecord text
  ofValue top

end ApiCensus.Index
