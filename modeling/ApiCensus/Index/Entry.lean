import ApiCensus.Index.Item
import ApiCensus.Index.LoadError

/-!
# Index entries

The records of an index before they become items.  An entry has a tag for its
kind and a payload that depends on it.  Current versions nest the payload under
the tag, older ones give the tag in a field of its own.

An entry refers to other items: to its owner, its members, its impl blocks, an
implemented trait, a re-export target and the scope of its visibility.
-/

namespace ApiCensus

/-- A record of an index, with the tag of its kind and the payload of that kind. -/
structure Entry where
  id : ItemId
  tag : String
  payload : Value
  source : Value
deriving DecidableEq, Repr

/-- A use of an identifier in a role. -/
structure Reference where
  target : ItemId
  role : Role
deriving DecidableEq, Repr

namespace Entry

/-- The empty record. -/
def noPayload : Value := .record []

/-- The tag and the payload of a record. -/
def split (source : Value) : String × Value :=
  match source.get "kind" with
  | .text tag => (tag, (source.get "inner").orElse noPayload)
  | _ =>
      match source.get "inner" with
      | .record [(tag, payload)] => (tag.toText, payload)
      | .text tag => (tag, noPayload)
      | _ => ("unknown", noPayload)

/-- The entry of a record. -/
def ofRecord (id : ItemId) (source : Value) : Entry :=
  let (tag, payload) := split source
  ⟨id, tag, payload, source⟩

/-- The kind of an entry. -/
def kind (entry : Entry) : ItemKind :=
  ItemKind.ofTag entry.tag

/-- The payload if it is a record, else an empty one. -/
def body (entry : Entry) : Value :=
  if entry.payload.isRecord then entry.payload else noPayload

/-- The identifier that a value denotes: any scalar but null denotes one. -/
def idOf? : Value → Option ItemId
  | .null => none
  | .scalar content => some content.toText
  | _ => none

/-- The identifiers that a list denotes. -/
def idsOf : Value → List ItemId
  | .list elements => elements.filterMap idOf?
  | _ => []

/-- The fields of a struct, union or variant whose payload tells its shape. -/
def shapeFields (shape : Value) : Except ShapeError (List ItemId) := do
  match shape.get? "plain", shape.get? "struct", shape.get? "tuple" with
  | some plain, _, _ =>
      let plain ← (plain.orElse noPayload).asRecord
      return idsOf (plain.get "fields")
  | none, some named, _ =>
      let named ← (named.orElse noPayload).asRecord
      return idsOf (named.get "fields")
  | none, none, some positions => return idsOf positions
  | none, none, none => return []

/-- The members that an entry lists: fields, variants, or items. -/
def members (entry : Entry) : Except ShapeError (List ItemId) :=
  let payload := entry.body
  match entry.kind with
  | .module | .trait | .impl => .ok (idsOf (payload.get "items"))
  | .enum => .ok (idsOf (payload.get "variants"))
  | .struct | .union | .variant =>
      match payload.get? "fields" with
      | some fields => .ok (idsOf fields)
      | none => shapeFields (payload.get "kind")
  | _ => .ok []

/-- The impl blocks that an entry lists. -/
def impls (entry : Entry) : List ItemId :=
  idsOf (entry.body.get "impls")

/-- The trait of an impl block. -/
def trait? (entry : Entry) : Option Value :=
  if entry.kind = .impl && (entry.body.get "trait").isRecord then some (entry.body.get "trait")
  else none

/-- The identifier of the trait of an impl block. -/
def traitId? (entry : Entry) : Option ItemId :=
  entry.trait?.bind fun trait => idOf? (trait.get "id")

/-- The identifier that a re-export exposes. -/
def reexportTarget? (entry : Entry) : Option ItemId :=
  if entry.kind = .reexport then idOf? (entry.body.get "id") else none

/-- The owner that an entry names itself. -/
def owner? (entry : Entry) : Option ItemId :=
  let owner := entry.source.get "parent"
  if owner.isNull then none else some owner.toText

/-- Declared visibility. -/
def visibility (entry : Entry) : Visibility :=
  match entry.source.get "visibility" with
  | .null => .inherited
  | .text level =>
      if level = "default" then .inherited
      else if level = "public" then .everywhere
      else if level = "crate" then .restricted "crate" none
      else .hidden
  | raw =>
      let scope := raw.get "restricted"
      if scope.isRecord then
        .restricted ((scope.get "path").orElse (.text "")).toText (idOf? (scope.get "parent"))
      else .hidden

/-- The reference of an entry to its owner. -/
def ownerReference? (entry : Entry) : Option Reference :=
  entry.owner?.map fun owner => ⟨owner, .owner⟩

/-- All other references of an entry. -/
def references (entry : Entry) : Except ShapeError (List Reference) := do
  let members ← entry.members
  return members.map (⟨·, .member⟩) ++
    entry.impls.map (⟨·, .implementation⟩) ++
    (entry.traitId?.map (⟨·, .implementedTrait⟩)).toList ++
    (entry.reexportTarget?.map (⟨·, .reexportTarget⟩)).toList ++
    (entry.visibility.scope?.map (⟨·, .visibilityScope⟩)).toList

end Entry

end ApiCensus
