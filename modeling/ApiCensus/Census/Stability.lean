import ApiCensus.Index.Document
import ApiCensus.Text.Search

/-!
# Stability

How far an item can be relied on.  Deprecation counts before everything else; an
attribute that contains one of the markers makes an item unstable; and an impl
block of an unstable trait of the index is unstable too.
-/

namespace ApiCensus

/-- How far an item can be relied on. -/
inductive Stability
  | stable
  | unstable
  | deprecated
deriving DecidableEq, Repr

namespace Stability

/-- The name of a tier. -/
def name : Stability → String
  | .stable => "stable"
  | .unstable => "unstable"
  | .deprecated => "deprecated"

/-- The tier with a name. -/
def ofName? (name : String) : Option Stability :=
  [.stable, .unstable, .deprecated].find? fun tier : Stability => tier.name == name

/-- The markers that are looked for by default. -/
def defaultMarkers : Value :=
  .list [.text "#[unstable"]

/-- Whether an attribute contains one of the markers. A marker before that has to
be a text. -/
def isMarked (attr : String) : List Value → Except ShapeError Bool
  | [] => .ok false
  | .text marker :: rest => if Text.contains attr marker then .ok true else isMarked attr rest
  | _ :: _ => .error .unsuited

/-- Whether one of the attributes contains one of the markers. -/
def anyMarked (markers : List Value) : List String → Except ShapeError Bool
  | [] => .ok false
  | attr :: rest => do if ← isMarked attr markers then return true else anyMarked markers rest

/-- The tier of an item by its own metadata. -/
def own (markers : Value) (item : Item) : Except ShapeError Stability := do
  if item.deprecation.isSome then return .deprecated
  let markers ← markers.members
  return if ← anyMarked markers item.attrs then .unstable else .stable

/-- The trait of the index that an impl block implements. -/
def implementedTrait? (document : Document) (item : Item) : Option Item :=
  (item.traitId.filter (!·.isEmpty)).bind document.item?

/-- The tier of an item of a document. -/
def ofItem (document : Document) (markers : Value) (item : Item) :
    Except ShapeError Stability := do
  let tier ← own markers item
  if tier != .stable || item.kind != .impl then return tier
  match implementedTrait? document item with
  | none => return tier
  | some trait => return if (← own markers trait) = .unstable then .unstable else tier

end Stability

end ApiCensus
