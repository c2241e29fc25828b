import ApiCensus.Number.Integer

/-!
# Item identifiers and their order

Identifiers are texts.  Those that are numerals come first, in the order of their
numbers; all others follow in the order of their code points.  A numeral that
does not denote a number (a superscript digit, too many digits) has no place in
the order.
-/

namespace ApiCensus

/-- The identifier of an item. -/
abbrev ItemId := String

/-- What an identifier is ordered by. -/
inductive IdKey
  | number (value : Int)
  | text (content : String)
deriving DecidableEq, Repr

namespace IdKey

/-- Numbers come first, in their order; texts follow in the order of code points. -/
def le : IdKey → IdKey → Bool
  | .number left, .number right => left ≤ right
  | .number _, .text _ => true
  | .text _, .number _ => false
  | .text left, .text right => !decide (right < left)

/-- Strictly before. -/
def lt (left right : IdKey) : Bool :=
  !right.le left

end IdKey

namespace ItemId

/-- The key an identifier is ordered by. -/
def key (id : ItemId) : Except Number.IntegerError IdKey :=
  if Text.isNumeral id then (Number.readInteger id).map .number else .ok (.text id)

/-- The identifiers in their order; equal keys keep their sequence. -/
def sort (ids : List ItemId) : Except Number.IntegerError (List ItemId) := do
  let keyed ← ids.mapM fun id => return (← key id, id)
  return (keyed.mergeSort fun left right => left.1.le right.1).map (·.2)

end ItemId

end ApiCensus
