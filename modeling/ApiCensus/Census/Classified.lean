import ApiCensus.Census.Category
import ApiCensus.Census.Stability
import ApiCensus.Tally.Counter

/-!
# Classified items

The record of one item that the counts and the listings are made from.
-/

namespace ApiCensus

/-- What the census knows about an item. -/
structure ClassifiedItem where
  id : ItemId
  name : Option String := none
  category : Category
  rawKind : String := "x"
  path : String := ""
  module : String := ""
  crate : String := ""
  visibility : Visibility := .everywhere
  stability : Stability := .stable
  deprecationNote : Option String := none
  genericCount : Nat := 0
  hasDocs : Bool := false
  isReexport : Bool := false
  isConst : Bool := false
  isAsync : Bool := false
  isUnsafe : Bool := false
  methodCount : Nat := 0
deriving DecidableEq, Repr

namespace ClassifiedItem

/-- Whether the item can be seen outside its crate. -/
def isPublic (item : ClassifiedItem) : Bool :=
  item.visibility.isPublic

/-- Whether the item is deprecated. -/
def isDeprecated (item : ClassifiedItem) : Bool :=
  item.stability = .deprecated

/-- Whether the item is unstable. -/
def isUnstable (item : ClassifiedItem) : Bool :=
  item.stability = .unstable

end ClassifiedItem

/-- How often each text occurs, in the order of the texts. -/
def tally (texts : List String) : List (String × Nat) :=
  addUp (texts.map fun text => (text, 1))

/-- The classified items of one document, in the order of identifiers. -/
structure Classification where
  items : List ClassifiedItem
deriving Repr

namespace Classification

/-- The items whose kind is not known. -/
def unknown (classification : Classification) : List ClassifiedItem :=
  classification.items.filter (·.category = .other)

/-- How often each unknown tag occurs, in the order of the tags. -/
def unrecognized (classification : Classification) : List (String × Nat) :=
  tally (classification.unknown.map (·.rawKind))

/-- The first item with each unknown tag. -/
def firstUnknown (classification : Classification) : List ClassifiedItem :=
  classification.unknown.foldl (fun firsts item =>
    if firsts.any (·.rawKind == item.rawKind) then firsts else firsts ++ [item]) []

end Classification

end ApiCensus
