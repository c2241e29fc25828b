import ApiCensus.Census.Classified
import ApiCensus.Failure

/-!
# Groupings

Items are counted by category alone, or by category together with a second
dimension: module, stability or crate.
-/

namespace ApiCensus

/-- What items are counted by besides their category. -/
inductive Grouping
  | category
  | module
  | stability
  | crate
deriving DecidableEq, Repr

namespace Grouping

/-- The name of a grouping. -/
def name : Grouping → String
  | .category => "category"
  | .module => "module"
  | .stability => "stability"
  | .crate => "crate"

/-- All groupings. -/
def all : List Grouping :=
  [.category, .module, .stability, .crate]

/-- The name of the second dimension. -/
def dimension? : Grouping → Option String
  | .category => none
  | grouping => some grouping.name

/-- The grouping with a name, in any case and with blanks around it. -/
def ofName (name : String) : Except Failure Grouping :=
  let word := Text.lower (Text.trim name)
  match all.find? (·.name == word) with
  | some grouping => .ok grouping
  | none => .error (.invalid (.grouping name))

/-- The grouping that a value names; only a text names one. -/
def ofValue : Value → Except Failure Grouping
  | .text name => ofName name
  | _ => .error (.shape .noParts)

/-- The second dimension of an item. -/
def dimensionOf (grouping : Grouping) (item : ClassifiedItem) : Option String :=
  match grouping with
  | .category => none
  | .module => some item.module
  | .stability => some item.stability.name
  | .crate => some item.crate

end Grouping

end ApiCensus
