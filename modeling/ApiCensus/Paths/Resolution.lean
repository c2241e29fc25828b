import ApiCensus.Failure
import ApiCensus.Index.Document

/-!
# Resolved paths

Where an item is found: the segments of its path, the container and the module it
belongs to, and whether it is a re-export or known from outside.  A cycle among
containers or re-exports is reported with the chain of identifiers that closes
it.
-/

namespace ApiCensus

/-- The canonical location of an item. -/
structure ResolvedPath where
  segments : List String
  isReexport : Bool := false
  isExternal : Bool := false
  parent : Option ItemId := none
  module : Option ItemId := none
deriving DecidableEq, Repr

/-- The segments joined to one name. -/
def ResolvedPath.joined (separator : String) (path : ResolvedPath) : String :=
  separator.intercalate path.segments

/-- A cycle that was met while resolving an identifier. The last identifier of
the chain is the one that occurred before. -/
structure Cycle where
  identifier : ItemId
  chain : List ItemId
deriving DecidableEq, Repr

namespace Cycle

/-- The wording of a cycle. -/
def message (cycle : Cycle) : String :=
  s!"cycle while resolving {Text.quoted cycle.identifier}: " ++
    " -> ".intercalate cycle.chain

/-- The identifiers on the cycle itself: the chain from the first occurrence of
its last identifier on. -/
def members (cycle : Cycle) : List ItemId :=
  match cycle.chain.getLast? with
  | none => []
  | some last => cycle.chain.dropWhile (· != last)

/-- Whether two cycles run through the same identifiers. -/
def sameMembers (cycle other : Cycle) : Bool :=
  cycle.members.all other.members.contains && other.members.all cycle.members.contains

end Cycle

/-- A cycle that was met, and whether its members had been reported before. -/
structure CycleReport where
  cycle : Cycle
  repeated : Bool
deriving DecidableEq, Repr

/-- The paths of the items of a document, and the cycles met on the way. -/
structure Resolution where
  paths : List (ItemId × ResolvedPath)
  reports : List CycleReport
  separator : String

namespace Resolution

/-- The path of an identifier. -/
def path? (resolution : Resolution) (id : ItemId) : Option ResolvedPath :=
  resolution.paths.lookup id

/-- The name of an item by its path, empty when it is not known. -/
def pathOf (resolution : Resolution) (id : ItemId) : String :=
  ((resolution.path? id).map (·.joined resolution.separator)).getD ""

/-- The name of the module of an item, empty when there is none. -/
def moduleOf (resolution : Resolution) (id : ItemId) : String :=
  (((resolution.path? id).bind (·.module)).map resolution.pathOf).getD ""

/-- The cycles, each once. -/
def warnings (resolution : Resolution) : List Cycle :=
  (resolution.reports.filter (!·.repeated)).map (·.cycle)

/-- The resolution that knows no path. -/
def unknown : Resolution :=
  ⟨[], [], "::"⟩

end Resolution

/-- The separator between the segments of a path. -/
def pathSeparator (config : Value) : Except ShapeError String := do
  let config ← (config.orElse (.record [])).asRecord
  match (config.get "path_separator").orElse (.text "::") with
  | .text separator => return separator
  | _ => throw .noParts

end ApiCensus
