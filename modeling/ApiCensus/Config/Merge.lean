import ApiCensus.Value.Basic

/-!
# Merging configurations

An update is laid over a base: records are merged entry by entry, and any other
value replaces the one below it.  Two keys are additive: where both sides have a
list under such a key, the result is the sorted union of the lists.
-/

namespace ApiCensus.Config

/-- The keys whose lists add up. -/
def additiveKeys : List String :=
  ["exclude_paths", "unstable_markers"]

/-- Whether the lists under a key add up. -/
def isAdditive : Scalar → Bool
  | .text name => additiveKeys.contains name
  | _ => false

/-- The kinds of scalars that can be put in order; those of different kinds cannot
be compared, and null with nothing. -/
inductive OrderKind
  | number
  | text
  | moment (kind : Nat)
deriving DecidableEq

/-- The kind of order of a scalar. -/
def orderKind? : Scalar → Option OrderKind
  | .null => none
  | .bool _ | .int _ | .float _ => some .number
  | .text _ => some .text
  | .moment instant => some (.moment instant.kind)

/-- The order of scalars of one kind. -/
def scalarLe (left right : Scalar) : Bool :=
  match left, right with
  | .text one, .text other => !decide (other < one)
  | .moment one, .moment other => decide (one.position ≤ other.position)
  | _, _ =>
      match left.place?, right.place? with
      | some one, some other => (one.compare other).isLE
      | _, _ => true

/-- The scalars in a list of values, if it holds nothing else. -/
def scalars : List Value → Except ShapeError (List Scalar)
  | [] => .ok []
  | .scalar content :: rest => do return content :: (← scalars rest)
  | _ :: _ => .error .unsuited

/-- The scalars without repetition, of equal ones the first. -/
def distinct (members : List Scalar) : List Scalar :=
  members.foldl (fun done scalar =>
    if done.any (·.same scalar) then done else done ++ [scalar]) []

/-- Whether scalars can be put in order: a single one always, several if all are
of one kind. -/
def isSortable : List Scalar → Bool
  | [] => true
  | [_] => true
  | first :: rest =>
      (orderKind? first).isSome && rest.all fun scalar => orderKind? scalar = orderKind? first

/-- The sorted union of two lists. -/
def union (left right : List Value) : Except ShapeError (List Value) := do
  let members := distinct (← scalars (left ++ right))
  if isSortable members then return (members.mergeSort scalarLe).map .scalar
  else throw .unsuited

mutual

/-- Lay a value over the one that is present under a key. -/
def mergeValue (key : Scalar) (present : Option Value) : (update : Value) → Except ShapeError Value
  | .record update =>
      match present with
      | some (.record base) => .record <$> mergeEntries base update
      | _ => .ok (.record update)
  | .list update =>
      match present with
      | some (.list base) =>
          if isAdditive key then .list <$> union base update else .ok (.list update)
      | _ => .ok (.list update)
  | .scalar update => .ok (.scalar update)

/-- Lay the entries of an update over those of a base, one after the other. -/
def mergeEntries (base : List (Scalar × Value)) :
    (update : List (Scalar × Value)) → Except ShapeError (List (Scalar × Value))
  | [] => .ok base
  | (key, value) :: rest => do
      let merged ← mergeValue key (Value.find? key base) value
      mergeEntries (Value.put key merged base) rest

end

/-- Lay an update over a base. -/
def merge (base update : Value) : Except ShapeError Value :=
  match base, update with
  | .record base, .record update => .record <$> mergeEntries base update
  | _, _ => .error .noParts

/-- The configuration that holds without any file. -/
def defaults : Value :=
  .ofFields [
    ("path_separator", .text "::"),
    ("exclude_paths", .list []),
    ("stability", .ofFields [("unstable_markers", .list [.text "#[unstable"])]),
    ("generics", .ofFields [("count_lifetimes", .bool false), ("count_synthetic", .bool false)]),
    ("output", .ofFields [("table_format", .text "simple"), ("ratio_precision", .int 4)])]

end ApiCensus.Config
