import ApiCensus.Paths.Resolution

/-!
# Resolving paths

The path of an item is found by climbing from container to container up to the
root of the crate.  Of several containers the one with the shortest path counts;
ties go to the smaller name and then to the smaller identifier.  An impl block
that a type lists belongs to that type.  A re-export has the path of the item it
exposes, found by following the chain of re-exports.

Answers are remembered in the tables of a `Resolver`: one for the segments before
an item, one for its container and one for its module.  Containers may form cycles:
the climb keeps the identifiers it came through on a stack, and when it meets one of
them again it reports the cycle and anchors that item at the crate.  Each round of
the climb places one more item, visits one more item, or shortens the stack, so the
climb ends.
-/

namespace ApiCensus

/-- Where the members of an item are: the segments before its own, the container
and the nearest module. -/
structure Placement where
  base : List String
  parent : Option ItemId
  module : Option ItemId
deriving DecidableEq, Repr

/-- What has been found out so far: of placed items the segments before their own,
the container and the nearest module, then followed re-exports, and the cycles that
were met. -/
structure Resolver where
  bases : List (ItemId × List String) := []
  parents : List (ItemId × Option ItemId) := []
  modules : List (ItemId × Option ItemId) := []
  reexports : List (ItemId × ResolvedPath) := []
  reports : List CycleReport := []
deriving Repr

/-- A question to a resolver, which keeps what it learns also when it fails. -/
abbrev Query := ExceptT Failure (StateM Resolver)

namespace Resolver

/-- The segments before those of an identifier. -/
def base? (resolver : Resolver) (id : ItemId) : Option (List String) :=
  resolver.bases.lookup id

/-- The container of an identifier. -/
def parent? (resolver : Resolver) (id : ItemId) : Option (Option ItemId) :=
  resolver.parents.lookup id

/-- The module around an identifier. -/
def module? (resolver : Resolver) (id : ItemId) : Option (Option ItemId) :=
  resolver.modules.lookup id

/-- Whether an identifier has been placed: its base is known. -/
def isPlaced (resolver : Resolver) (id : ItemId) : Bool :=
  (resolver.base? id).isSome

/-- The placement of an identifier, if all its parts are known. -/
def placement? (resolver : Resolver) (id : ItemId) : Option Placement :=
  match resolver.base? id, resolver.parent? id, resolver.module? id with
  | some base, some parent, some module => some ⟨base, parent, module⟩
  | _, _, _ => none

/-- Remember a placement, each part in its table. -/
def place (resolver : Resolver) (id : ItemId) (placement : Placement) : Resolver :=
  { resolver with
    bases := (id, placement.base) :: resolver.bases
    parents := (id, placement.parent) :: resolver.parents
    modules := (id, placement.module) :: resolver.modules }

/-- Report a cycle; one whose members have been reported is marked as repeated. -/
def report (resolver : Resolver) (cycle : Cycle) : Resolver :=
  let repeated := resolver.reports.any (·.cycle.sameMembers cycle)
  { resolver with reports := resolver.reports ++ [⟨cycle, repeated⟩] }

/-- The cycles met so far, each once. -/
def warnings (resolver : Resolver) : List Cycle :=
  (resolver.reports.filter (!·.repeated)).map (·.cycle)

/-- Remember the path that a re-export leads to, unless it is known. -/
def rememberReexport (resolver : Resolver) (id : ItemId) (path : ResolvedPath) : Resolver :=
  if (resolver.reexports.lookup id).isSome then resolver
  else { resolver with reexports := (id, path) :: resolver.reexports }

@[simp] theorem isPlaced_place (resolver : Resolver) (id other : ItemId)
    (placement : Placement) :
    (resolver.place id placement).isPlaced other = (other == id || resolver.isPlaced other) := by
  by_cases same : other = id
  · simp [isPlaced, base?, place, same]
  · simp [isPlaced, base?, place, List.lookup_cons, beq_false_of_ne same]

@[simp] theorem isPlaced_report (resolver : Resolver) (cycle : Cycle) (id : ItemId) :
    (resolver.report cycle).isPlaced id = resolver.isPlaced id :=
  rfl

/-! ### Choosing a container -/

/-- A container and the segments it gives to the paths of its members. -/
structure Candidate where
  stem : List String
  id : ItemId
deriving DecidableEq, Repr

/-- What candidates are compared by. -/
structure Rank where
  length : Nat
  joined : String
  key : IdKey
deriving DecidableEq, Repr

/-- Shorter stems first, then smaller names, then smaller identifiers. -/
def Rank.lt (left right : Rank) : Bool :=
  left.length < right.length ||
    (left.length == right.length &&
      (decide (left.joined < right.joined) ||
        (left.joined == right.joined && left.key.lt right.key)))

/-- The rank of a candidate. -/
def Candidate.rank (separator : String) (candidate : Candidate) : Except Failure Rank := do
  return ⟨candidate.stem.length, separator.intercalate candidate.stem,
    ← ItemId.key candidate.id⟩

/-- The first candidate of least rank among `best` and those that follow. -/
def leastFrom (best : Rank × Candidate) : List (Rank × Candidate) → Candidate
  | [] => best.2
  | next :: rest => leastFrom (if next.1.lt best.1 then next else best) rest

/-- The segments that a container gives to the paths of its members: those of its
own place and its name. A container in the index has to be placed. -/
def stem (document : Document) (resolver : Resolver) (id : ItemId) :
    Except Failure (List String) :=
  match document.item? id with
  | some item =>
      match resolver.base? id with
      | some base => .ok (base ++ item.properName?.toList)
      | none => .error (.shape .missingKey)
  | none =>
      match document.summary? id with
      | some summary => .ok summary.segments
      | none => .error (.shape .missingKey)

/-- The containers of an item that are known. -/
def candidates (document : Document) (resolver : Resolver) (item : Item) :
    Except Failure (List Candidate) :=
  (item.parents.filter document.isKnown).mapM fun id => do
    return ⟨← stem document resolver id, id⟩

/-- Whether an identifier is an impl block that the type `owner` lists. -/
def implementsOn (document : Document) (owner id : ItemId) : Bool :=
  match document.item? owner with
  | some item => item.kind.isType && item.impls.contains id
  | none => false

/-- The containers that an item may belong to: the types that list it as an impl
block if there are any, else all. -/
def admissible (document : Document) (id : ItemId) (candidates : List Candidate) :
    List Candidate :=
  let owners := candidates.filter fun candidate => implementsOn document candidate.id id
  if owners.isEmpty then candidates else owners

/-- The module that encloses the members of a container. -/
def moduleBelow (document : Document) (resolver : Resolver) (container : ItemId) :
    Option ItemId :=
  match document.item? container with
  | none => none
  | some item =>
      if item.kind = .module then some container
      else (resolver.module? container).join

/-- The placement of an item without known containers. -/
def orphan (document : Document) (id : ItemId) : Placement :=
  ⟨if id = document.root then [] else [document.crateName], none, none⟩

/-- The placement of an item all of whose containers in the index are placed. -/
def settle (document : Document) (separator : String) (resolver : Resolver) (item : Item) :
    Except Failure Placement := do
  let choices := admissible document item.id (← candidates document resolver item)
  let ranked ← choices.mapM fun candidate => do return (← candidate.rank separator, candidate)
  match ranked with
  | [] => return orphan document item.id
  | first :: rest =>
      let chosen := leastFrom first rest
      return ⟨chosen.stem, some chosen.id, moduleBelow document resolver chosen.id⟩

/-! ### Climbing -/

/-- The first container of an item that is in the index and not yet placed. -/
def pending? (document : Document) (resolver : Resolver) (item : Item) : Option ItemId :=
  item.parents.find? fun id => document.isLocal id && !resolver.isPlaced id

/-- Report the cycle that closes at `id`, which is on the stack, and anchor `id`
at the crate. -/
def breakCycle (document : Document) (resolver : Resolver) (id : ItemId)
    (stack : List ItemId) : Resolver :=
  let chain := id :: (stack.takeWhile (· != id)).reverse ++ [id]
  (resolver.report ⟨id, chain⟩).place id ⟨[document.crateName], none, none⟩

/-- How many items are not placed. -/
def unplaced (document : Document) (resolver : Resolver) : Nat :=
  (document.items.filter fun item => !resolver.isPlaced item.id).length

/-- How many items are neither placed nor on the stack. -/
def unvisited (document : Document) (resolver : Resolver) (stack : List ItemId) : Nat :=
  (document.items.filter fun item =>
    !resolver.isPlaced item.id && !stack.contains item.id).length

private theorem length_filter_lt {α : Type} {keep before : α → Bool} {elements : List α}
    (dropped : α) (weaker : ∀ element, keep element = true → before element = true)
    (member : dropped ∈ elements) (was : before dropped = true)
    (gone : keep dropped = false) :
    (elements.filter keep).length < (elements.filter before).length := by
  induction elements with
  | nil => cases member
  | cons first rest ih =>
      have shorter : (rest.filter keep).length ≤ (rest.filter before).length := by
        clear ih member
        induction rest with
        | nil => simp
        | cons next more ih =>
            by_cases kept : keep next = true
            · simpa [List.filter_cons, kept, weaker next kept] using ih
            · by_cases old : before next = true
              · simp only [List.filter_cons, kept, old, if_true, List.length_cons]
                simp only [Bool.false_eq_true, if_false]
                omega
              · simpa [List.filter_cons, kept, old] using ih
      rcases List.mem_cons.mp member with rfl | later
      · simp only [List.filter_cons, was, gone, if_true, List.length_cons]
        simp only [Bool.false_eq_true, if_false]
        omega
      · have smaller := ih later
        by_cases kept : keep first = true
        · simpa [List.filter_cons, kept, weaker first kept] using smaller
        · by_cases old : before first = true
          · simp only [List.filter_cons, kept, old, if_true, List.length_cons]
            simp only [Bool.false_eq_true, if_false]
            omega
          · simpa [List.filter_cons, kept, old] using smaller

/-- An identifier found in the index belongs to one of its items. -/
theorem exists_item_of_isLocal {document : Document} {id : ItemId}
    (found : document.isLocal id = true) : ∃ item ∈ document.items, item.id = id := by
  simp only [Document.isLocal, Document.item?, List.find?_isSome, beq_iff_eq] at found
  exact found

/-- Placing an item of the index leaves fewer items to place. -/
theorem unplaced_place_lt {document : Document} {resolver : Resolver} {id : ItemId}
    (placement : Placement) (found : document.isLocal id = true)
    (fresh : resolver.isPlaced id = false) :
    unplaced document (resolver.place id placement) < unplaced document resolver := by
  obtain ⟨item, member, rfl⟩ := exists_item_of_isLocal found
  refine length_filter_lt item ?_ member ?_ ?_
  · intro element kept
    simp only [isPlaced_place, Bool.not_or, Bool.and_eq_true] at kept
    exact kept.2
  · simp [fresh]
  · simp

/-- A pending container is in the index and not placed. -/
theorem of_pending?_eq_some {document : Document} {resolver : Resolver} {item : Item}
    {id : ItemId} (pending : pending? document resolver item = some id) :
    document.isLocal id = true ∧ resolver.isPlaced id = false := by
  have holds := List.find?_some pending
  simpa using holds

/-- Pushing an identifier that is pending and not on the stack leaves fewer items
to visit. -/
theorem unvisited_push_lt {document : Document} {resolver : Resolver} {id : ItemId}
    {stack : List ItemId} (found : document.isLocal id = true)
    (fresh : resolver.isPlaced id = false) (off : stack.contains id = false) :
    unvisited document resolver (id :: stack) < unvisited document resolver stack := by
  obtain ⟨item, member, rfl⟩ := exists_item_of_isLocal found
  refine length_filter_lt item ?_ member ?_ ?_
  · intro element kept
    simp only [List.contains_cons, Bool.not_or, Bool.and_eq_true] at kept
    rw [kept.1, kept.2.2]
    rfl
  · rw [fresh, off]
    rfl
  · simp

set_option linter.unusedVariables false in
/-- Place the identifiers on the stack, each after its containers. -/
def climb (document : Document) (separator : String) (resolver : Resolver)
    (stack : List ItemId) : Except Failure Unit × Resolver :=
  match stack with
  | [] => (.ok (), resolver)
  | id :: below =>
      if placed : resolver.isPlaced id = true then climb document separator resolver below
      else
        match found : document.item? id with
        | none => (.error (.shape .missingKey), resolver)
        | some item =>
            match pending : pending? document resolver item with
            | some next =>
                if on : (id :: below).contains next = true then
                  climb document separator (breakCycle document resolver next (id :: below))
                    (id :: below)
                else climb document separator resolver (next :: id :: below)
            | none =>
                match settle document separator resolver item with
                | .error cause => (.error cause, resolver)
                | .ok placement =>
                    climb document separator (resolver.place id placement) below
termination_by (unplaced document resolver, unvisited document resolver stack, stack.length)
decreasing_by
  · have same : unvisited document resolver below = unvisited document resolver (id :: below) := by
      unfold unvisited
      congr 2
      funext item
      by_cases equal : item.id = id
      · simp [equal, placed]
      · simp [equal]
    rw [same]
    exact Prod.Lex.right _ (Prod.Lex.right _ (by simp))
  · have facts := of_pending?_eq_some pending
    exact Prod.Lex.left _ _ (unplaced_place_lt _ facts.1 (by simpa using facts.2))
  · have facts := of_pending?_eq_some pending
    exact Prod.Lex.right _ (Prod.Lex.left _ _
      (unvisited_push_lt facts.1 facts.2 (by simpa using on)))
  · have isLocal : document.isLocal id = true := by simp [Document.isLocal, found]
    exact Prod.Lex.left _ _ (unplaced_place_lt _ isLocal (by simpa using placed))

/-- Where an item is declared, without regard to re-exports. -/
def location (document : Document) (separator : String) (id : ItemId) : Query ResolvedPath := do
  ExceptT.mk fun resolver => climb document separator resolver [id]
  match document.item? id, (← get).placement? id with
  | some item, some placement =>
      return {
        segments := placement.base ++ [item.leaf]
        parent := placement.parent
        module := placement.module }
  | _, _ => throw (.shape .missingKey)

/-! ### Following re-exports -/

/-- Where a chain of re-exports ends. -/
inductive Destination
  /-- At a re-export whose path is known. -/
  | followed (path : ResolvedPath)
  /-- At an item that is known by its path alone. -/
  | outside (summary : PathSummary)
  /-- At an item of the index. -/
  | declared (id : ItemId)
  /-- At an identifier that the chain has passed before. -/
  | closed
  /-- At an identifier that is not known. -/
  | missing

/-- The identifier that an item of the index re-exports. -/
def nextTarget? (item : Item) : Option ItemId :=
  if item.kind = .reexport then item.reexportTarget else none

set_option linter.unusedVariables false in
/-- Follow re-exports from `id`, the last identifier of `chain`. Returns the whole
chain and where it ends. -/
def trace (document : Document) (reexports : List (ItemId × ResolvedPath))
    (chain : List ItemId) (id : ItemId) : List ItemId × Destination :=
  match reexports.lookup id with
  | some path => (chain, .followed path)
  | none =>
      match found : document.item? id with
      | none =>
          match document.summary? id with
          | some summary => (chain, .outside summary)
          | none => (chain, .missing)
      | some item =>
          match nextTarget? item with
          | none => (chain, .declared id)
          | some target =>
              if passed : chain.contains target = true then (chain ++ [target], .closed)
              else trace document reexports (chain ++ [target]) target
termination_by
  (document.items.filter fun item => !chain.contains item.id).length +
    (if document.isLocal id then 1 else 0)
decreasing_by
  have here : document.isLocal id = true := by simp [Document.isLocal, found]
  simp only [here, if_true]
  by_cases beyond : document.isLocal target = true
  · obtain ⟨item, member, rfl⟩ := exists_item_of_isLocal beyond
    have fewer : (document.items.filter fun other => !(chain ++ [item.id]).contains other.id).length <
        (document.items.filter fun other => !chain.contains other.id).length := by
      refine length_filter_lt item ?_ member ?_ ?_
      · intro element kept
        simp only [List.contains_append, Bool.not_or, Bool.and_eq_true] at kept
        exact kept.1
      · simpa using passed
      · simp
    simp only [beyond, if_true]
    omega
  · have fewer : (document.items.filter fun other => !(chain ++ [target]).contains other.id).length ≤
        (document.items.filter fun other => !chain.contains other.id).length := by
      rw [← List.countP_eq_length_filter, ← List.countP_eq_length_filter]
      refine List.countP_mono_left ?_
      intro element _ kept
      simp only [List.contains_append, Bool.not_or, Bool.and_eq_true] at kept
      exact kept.1
    simp only [beyond, Bool.false_eq_true, if_false]
    omega

/-- Whether an identifier is a re-export of the index. -/
def isReexport (document : Document) (id : ItemId) : Bool :=
  (document.item? id).any (·.kind = .reexport)

/-- Remember a path for all re-exports of a chain. -/
def rememberChain (document : Document) (resolver : Resolver) (chain : List ItemId)
    (path : ResolvedPath) : Resolver :=
  (chain.filter (isReexport document)).foldl (fun resolver id => resolver.rememberReexport id path)
    resolver

/-- The path that a re-export leads to, or the cycle that it runs into. -/
def follow (document : Document) (separator : String) (id : ItemId) :
    Query (Except Cycle ResolvedPath) := do
  let (chain, destination) := trace document (← get).reexports [id] id
  let finish (path : ResolvedPath) : Query (Except Cycle ResolvedPath) := do
    modify fun resolver => rememberChain document resolver chain path
    return .ok path
  match destination with
  | .followed path => finish path
  | .outside summary => finish { segments := summary.segments, isExternal := true }
  | .declared target => finish (← location document separator target)
  | .closed => return .error ⟨id, chain⟩
  | .missing => throw (.shape .missingKey)

/-- The canonical path of an item. -/
def resolve (document : Document) (separator : String) (id : ItemId) : Query ResolvedPath := do
  let location ← location document separator id
  if isReexport document id then
    match ← follow document separator id with
    | .error cycle =>
        modify fun resolver => resolver.report cycle
        return { location with isReexport := true }
    | .ok path =>
        return { path with
          isReexport := true, parent := location.parent, module := location.module }
  else return location

/-- Resolve every item of the index in the order of identifiers. -/
def resolveAll (document : Document) (separator : String) :
    Query (List (ItemId × ResolvedPath)) := do
  let ids ← document.sortedIds.mapError fun cause => Failure.invalid (.integer cause)
  ids.mapM fun id => do return (id, ← resolve document separator id)

end Resolver

/-- The paths of all items of a document. -/
def Document.resolve (document : Document) (config : Value) : Except Failure Resolution := do
  let separator ← pathSeparator config
  let (result, resolver) := (Resolver.resolveAll document separator).run {}
  let paths ← result
  return ⟨paths, resolver.reports, separator⟩

end ApiCensus
