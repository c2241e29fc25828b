import ApiCensus.Index.ItemId
import ApiCensus.Index.ItemKind
import ApiCensus.Value.Basic

/-!
# Items

The declared entities of an index with the attributes that the census looks at.
-/

namespace ApiCensus

/-- Where an item can be seen. -/
inductive Visibility
  /-- Outside its crate. -/
  | everywhere
  /-- Below a path, with the module of that path where it is known. -/
  | restricted (path : String) (scope : Option ItemId)
  /-- Nowhere outside its module. -/
  | hidden
  /-- Where its container can be seen. -/
  | inherited
deriving DecidableEq, Repr

namespace Visibility

/-- The name of the level of visibility. -/
def level : Visibility → String
  | .everywhere => "public"
  | .restricted .. => "restricted"
  | .hidden => "private"
  | .inherited => "default"

/-- The path that visibility is restricted to. -/
def path? : Visibility → Option String
  | .restricted path _ => some path
  | _ => none

/-- The module that visibility is restricted to. -/
def scope? : Visibility → Option ItemId
  | .restricted _ scope => scope
  | _ => none

/-- Whether the item can be seen outside its crate. -/
def isPublic (visibility : Visibility) : Bool :=
  visibility = .everywhere

end Visibility

/-- Since when and why an item is deprecated. -/
structure Deprecation where
  since : Option String
  note : Option String
deriving DecidableEq, Repr

/-- A generic parameter; a synthetic one stands for an `impl Trait` argument. -/
structure GenericParam where
  name : String
  kind : String
  isSynthetic : Bool
deriving DecidableEq, Repr

/-- One declared entity. `parents` are the containers that list it, `children`
its members, `impls` the impl blocks of a type, and `inner` the part of its
record that depends on its kind. -/
structure Item where
  id : ItemId
  kind : ItemKind
  rawKind : String
  name : Option String
  crateId : String
  visibility : Visibility
  parents : List ItemId
  children : List ItemId
  attrs : List String
  deprecation : Option Deprecation
  generics : List GenericParam
  hasDocs : Bool
  reexportTarget : Option ItemId
  traitId : Option ItemId
  traitName : Option String
  impls : List ItemId
  hasBody : Bool
  isConst : Bool
  isAsync : Bool
  isUnsafe : Bool
  isSynthetic : Bool
  isBlanket : Bool
  inner : Value
deriving DecidableEq, Repr

namespace Item

/-- The first container, none for the root of the crate. -/
def parent? (item : Item) : Option ItemId :=
  item.parents.head?

/-- The name, unless it is missing or empty. -/
def properName? (item : Item) : Option String :=
  item.name.filter (!·.isEmpty)

/-- Whether an impl block implements a trait. -/
def implementsTrait (item : Item) : Bool :=
  item.traitId.isSome || item.traitName.any (!·.isEmpty)

/-- The last segment of the path of an item. -/
def leaf (item : Item) : String :=
  match item.properName? with
  | some name => name
  | none =>
      if item.kind = .impl then
        match item.traitName.filter (!·.isEmpty) with
        | some traitName => "<impl " ++ traitName ++ ">"
        | none => "<impl>"
      else "<" ++ item.rawKind ++ ">"

end Item

end ApiCensus
