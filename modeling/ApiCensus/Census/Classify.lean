import ApiCensus.Census.Classified
import ApiCensus.Paths.Resolution

/-!
# Classifying items

Every item of a document becomes a classified item: its category by its kind and
its container, its visibility by the nearest container that declares one, its
stability, and the numbers of its generic parameters and methods.
-/

namespace ApiCensus

/-- The settings that classification depends on. -/
structure ClassifySettings where
  markers : Value
  generics : Value

/-- The settings in a configuration. -/
def ClassifySettings.ofConfig (config : Value) : Except ShapeError ClassifySettings := do
  let config ← (config.orElse (.record [])).asRecord
  let stability ← ((config.get "stability").orElse (.record [])).asRecord
  return {
    markers := (stability.get? "unstable_markers").getD Stability.defaultMarkers
    generics := (config.get "generics").orElse (.record []) }

namespace Census

/-- The container of an item: that of its path where it is resolved, else the
first that lists it. -/
def container? (resolution : Resolution) (item : Item) : Option ItemId :=
  match resolution.path? item.id with
  | some path => path.parent
  | none => item.parent?

set_option linter.unusedVariables false in
/-- The visibility of an item, that of the nearest container that declares one if
the item declares none. `seen` are the identifiers already climbed through;
without a container, or back at one of them, the item is public. -/
def visibilityFrom (document : Document) (resolution : Resolution) (seen : List ItemId)
    (item : Item) : Visibility :=
  if item.visibility = .inherited then
    match container? resolution item with
    | none => .everywhere
    | some container =>
        if fresh : seen.contains container = true then .everywhere
        else
          match found : document.item? container with
          | none => .everywhere
          | some next => visibilityFrom document resolution (container :: seen) next
  else item.visibility
termination_by (document.items.filter fun item => !seen.contains item.id).length
decreasing_by exact Document.length_filter_unseen_lt found (by simpa using fresh)

/-- The visibility of an item once inheritance is resolved. -/
def effectiveVisibility (document : Document) (resolution : Resolution) (item : Item) :
    Visibility :=
  visibilityFrom document resolution [item.id] item

/-- The number of generic parameters, with or without lifetimes and synthetic
parameters. -/
def countGenerics (lifetimes synthetic : Bool) (item : Item) : Nat :=
  item.generics.countP fun param =>
    (param.kind != "lifetime" || lifetimes) && (!param.isSynthetic || synthetic)

/-- The number of functions of the index among identifiers. -/
def countFunctions (document : Document) (ids : List ItemId) : Nat :=
  ids.countP fun id => (document.item? id).any (·.kind = .function)

/-- Whether an item is an impl block of a type itself, written by hand. -/
def isInherentImpl (item : Item) : Bool :=
  item.kind = .impl && !item.implementsTrait && !item.isSynthetic && !item.isBlanket

/-- The number of methods of a trait, or of the inherent impl blocks of a type. -/
def countMethods (document : Document) (item : Item) : Nat :=
  if item.kind = .trait then countFunctions document item.children
  else if item.kind.isType then
    Number.total (((item.impls.filterMap document.item?).filter isInherentImpl).map fun block =>
      countFunctions document block.children)
  else 0

/-- Classify an item of a document. -/
def classifyItem (document : Document) (resolution : Resolution) (settings : ClassifySettings)
    (item : Item) : Except ShapeError ClassifiedItem := do
  let container := ((container? resolution item).filter (!·.isEmpty)).bind document.item?
  let stability ← Stability.ofItem document settings.markers item
  let generics ← settings.generics.asRecord
  let counts (name : String) := ((generics.get? name).getD (.bool false)).isTruthy
  return {
    id := item.id
    name := item.name
    category := Category.ofItem item (container.map (·.kind))
    rawKind := item.rawKind
    path := resolution.pathOf item.id
    module := resolution.moduleOf item.id
    crate := document.crateOf item.id
    visibility := effectiveVisibility document resolution item
    stability
    deprecationNote := item.deprecation.bind (·.note)
    genericCount := countGenerics (counts "count_lifetimes") (counts "count_synthetic") item
    hasDocs := item.hasDocs
    isReexport := (resolution.path? item.id).any (·.isReexport)
    isConst := item.isConst
    isAsync := item.isAsync
    isUnsafe := item.isUnsafe
    methodCount := countMethods document item }

end Census

/-- Classify the items of a document in the order of identifiers. -/
def Document.classify (document : Document) (resolution : Resolution) (config : Value) :
    Except Failure Classification := do
  let ids ← document.sortedIds
  let settings ← ClassifySettings.ofConfig config
  let items ← (ids.filterMap document.item?).mapM fun item => do
    let classified ← Census.classifyItem document resolution settings item
    return classified
  return ⟨items⟩

end ApiCensus
