import ApiCensus.Paths.Resolver
import ApiCensus.Proofs.ItemGraph

/-!
# The steps of a resolver

Whatever a resolver is asked, its state changes in four ways only.  It places an
item whose containers are placed, it anchors an item on a cycle of containers and
reports that cycle, it remembers where a re-export leads, or it reports a cycle of
re-exports.  `Advance` is one such step.  Every question is a sequence of steps,
so that what each step keeps holds after any history of questions.  The tables of
bases, containers and modules keep the same keys that way.
-/

namespace ApiCensus.Resolver

open Relation

/-- The path of an item at its placement. -/
def declaredPath (item : Item) (placement : Placement) : ResolvedPath where
  segments := placement.base ++ [item.leaf]
  parent := placement.parent
  module := placement.module

/-- The path at which a chain of re-exports from an identifier ends. -/
inductive Leads (document : Document) (resolver : Resolver) : ItemId → ResolvedPath → Prop
  | declared {id : ItemId} {item : Item} {placement : Placement} :
      document.item? id = some item → nextTarget? item = none →
      resolver.placement? id = some placement →
      Leads document resolver id (declaredPath item placement)
  | outside {id : ItemId} {summary : PathSummary} :
      document.item? id = none → document.summary? id = some summary →
      Leads document resolver id { segments := summary.segments, isExternal := true }
  | through {id target : ItemId} {path : ResolvedPath} :
      document.Exposes id target → Leads document resolver target path →
      Leads document resolver id path

/-- One change of the state of a resolver. -/
inductive Advance (document : Document) (separator : String) : Resolver → Resolver → Prop
  /-- Place an item all of whose containers in the index are placed. -/
  | settle {resolver : Resolver} {id : ItemId} {item : Item} {placement : Placement} :
      resolver.isPlaced id = false → document.item? id = some item →
      pending? document resolver item = none →
      settle document separator resolver item = .ok placement →
      Advance document separator resolver (resolver.place id placement)
  /-- Report a cycle of containers and anchor an item on it at the crate. -/
  | anchor {resolver : Resolver} {id : ItemId} {between : List ItemId} :
      resolver.isPlaced id = false →
      (id :: between ++ [id]).IsChain document.ContainedIn →
      Advance document separator resolver
        ((resolver.report ⟨id, id :: between ++ [id]⟩).place id
          ⟨[document.crateName], none, none⟩)
  /-- Remember the path that a re-export leads to. -/
  | remember {resolver : Resolver} {id : ItemId} {path : ResolvedPath} :
      isReexport document id = true → Leads document resolver id path →
      Advance document separator resolver (resolver.rememberReexport id path)
  /-- Report a cycle of re-exports, with a way that leads into it. -/
  | close {resolver : Resolver} {id start : ItemId} {before between : List ItemId} :
      (before ++ start :: between ++ [start]).IsChain document.Exposes → start ∉ before →
      Advance document separator resolver
        (resolver.report ⟨id, before ++ start :: between ++ [start]⟩)

/-- Any number of steps. -/
abbrev Advances (document : Document) (separator : String) : Resolver → Resolver → Prop :=
  ReflTransGen (Advance document separator)

/-! ### The parts of the state -/

theorem lookup_cons_eq_ite {β : Type} (id other : ItemId) (entry : β)
    (table : List (ItemId × β)) :
    ((id, entry) :: table).lookup other =
      if other = id then some entry else table.lookup other := by
  by_cases same : other = id
  · simp [same]
  · simp [List.lookup_cons, beq_false_of_ne same, same]

theorem base?_place (resolver : Resolver) (id other : ItemId) (placement : Placement) :
    (resolver.place id placement).base? other =
      if other = id then some placement.base else resolver.base? other :=
  lookup_cons_eq_ite ..

theorem parent?_place (resolver : Resolver) (id other : ItemId) (placement : Placement) :
    (resolver.place id placement).parent? other =
      if other = id then some placement.parent else resolver.parent? other :=
  lookup_cons_eq_ite ..

theorem module?_place (resolver : Resolver) (id other : ItemId) (placement : Placement) :
    (resolver.place id placement).module? other =
      if other = id then some placement.module else resolver.module? other :=
  lookup_cons_eq_ite ..

theorem placement?_place (resolver : Resolver) (id other : ItemId) (placement : Placement) :
    (resolver.place id placement).placement? other =
      if other = id then some placement else resolver.placement? other := by
  by_cases same : other = id <;>
    simp [placement?, base?_place, parent?_place, module?_place, same]

@[simp] theorem placement?_report (resolver : Resolver) (cycle : Cycle) (id : ItemId) :
    (resolver.report cycle).placement? id = resolver.placement? id :=
  rfl

@[simp] theorem base?_rememberReexport (resolver : Resolver) (id other : ItemId)
    (path : ResolvedPath) :
    (resolver.rememberReexport id path).base? other = resolver.base? other := by
  unfold rememberReexport
  split <;> rfl

@[simp] theorem parent?_rememberReexport (resolver : Resolver) (id other : ItemId)
    (path : ResolvedPath) :
    (resolver.rememberReexport id path).parent? other = resolver.parent? other := by
  unfold rememberReexport
  split <;> rfl

@[simp] theorem module?_rememberReexport (resolver : Resolver) (id other : ItemId)
    (path : ResolvedPath) :
    (resolver.rememberReexport id path).module? other = resolver.module? other := by
  unfold rememberReexport
  split <;> rfl

@[simp] theorem placement?_rememberReexport (resolver : Resolver) (id other : ItemId)
    (path : ResolvedPath) :
    (resolver.rememberReexport id path).placement? other = resolver.placement? other := by
  simp [placement?]

@[simp] theorem reports_rememberReexport (resolver : Resolver) (id : ItemId)
    (path : ResolvedPath) :
    (resolver.rememberReexport id path).reports = resolver.reports := by
  unfold rememberReexport
  split <;> rfl

/-- Only the identifier that is remembered can get a new path. -/
theorem lookup_rememberReexport {resolver : Resolver} {id other : ItemId}
    {path found : ResolvedPath}
    (known : (resolver.rememberReexport id path).reexports.lookup other = some found) :
    resolver.reexports.lookup other = some found ∨ other = id ∧ found = path := by
  unfold rememberReexport at known
  split at known
  · exact .inl known
  · by_cases same : other = id
    · subst same
      rw [List.lookup_cons_self] at known
      exact .inr ⟨rfl, (Option.some.inj known).symm⟩
    · rw [List.lookup_cons, beq_false_of_ne same] at known
      exact .inl known

/-- The parts of a placement stand in their tables. -/
theorem placement?_eq_some_iff {resolver : Resolver} {id : ItemId} {placement : Placement} :
    resolver.placement? id = some placement ↔
      resolver.base? id = some placement.base ∧ resolver.parent? id = some placement.parent ∧
        resolver.module? id = some placement.module := by
  unfold placement?
  constructor
  · intro found
    split at found
    · rename_i base parent module baseFound parentFound moduleFound
      cases found
      exact ⟨baseFound, parentFound, moduleFound⟩
    · cases found
  · rintro ⟨baseFound, parentFound, moduleFound⟩
    rw [baseFound, parentFound, moduleFound]

theorem isPlaced_of_placement? {resolver : Resolver} {id : ItemId} {placement : Placement}
    (placed : resolver.placement? id = some placement) : resolver.isPlaced id = true :=
  Option.isSome_iff_exists.mpr ⟨placement.base, (placement?_eq_some_iff.mp placed).1⟩

/-! ### The keys of the tables -/

/-- The identifiers with a base are those with a container and those with a
module. -/
structure SameKeys (resolver : Resolver) : Prop where
  parents : ∀ id, (resolver.parent? id).isSome = (resolver.base? id).isSome
  modules : ∀ id, (resolver.module? id).isSome = (resolver.base? id).isSome

theorem sameKeys_empty : SameKeys {} :=
  ⟨fun _ => rfl, fun _ => rfl⟩

theorem SameKeys.place {resolver : Resolver} (keys : resolver.SameKeys) (id : ItemId)
    (placement : Placement) : (resolver.place id placement).SameKeys where
  parents other := by
    rw [parent?_place, base?_place]
    split
    · rfl
    · exact keys.parents other
  modules other := by
    rw [module?_place, base?_place]
    split
    · rfl
    · exact keys.modules other

theorem SameKeys.report {resolver : Resolver} (keys : resolver.SameKeys) (cycle : Cycle) :
    (resolver.report cycle).SameKeys :=
  ⟨keys.parents, keys.modules⟩

theorem Advance.sameKeys {document : Document} {separator : String} {resolver next : Resolver}
    (step : Advance document separator resolver next) (keys : resolver.SameKeys) :
    next.SameKeys := by
  cases step with
  | settle => exact keys.place _ _
  | anchor => exact (keys.report _).place _ _
  | remember =>
      constructor
      · simpa using keys.parents
      · simpa using keys.modules
  | close => exact keys.report _

theorem Advances.sameKeys {document : Document} {separator : String} {resolver next : Resolver}
    (steps : Advances document separator resolver next) (keys : resolver.SameKeys) :
    next.SameKeys := by
  induction steps with
  | refl => exact keys
  | tail _ step induction => exact step.sameKeys induction

theorem SameKeys.isPlaced_iff {resolver : Resolver} (keys : resolver.SameKeys) {id : ItemId} :
    resolver.isPlaced id = true ↔ ∃ placement, resolver.placement? id = some placement := by
  constructor
  · intro placed
    obtain ⟨base, baseFound⟩ := Option.isSome_iff_exists.mp placed
    obtain ⟨parent, parentFound⟩ := Option.isSome_iff_exists.mp ((keys.parents id).trans placed)
    obtain ⟨module, moduleFound⟩ := Option.isSome_iff_exists.mp ((keys.modules id).trans placed)
    exact ⟨⟨base, parent, module⟩,
      placement?_eq_some_iff.mpr ⟨baseFound, parentFound, moduleFound⟩⟩
  · rintro ⟨placement, placed⟩
    exact isPlaced_of_placement? placed

theorem sameKeys_of_advances {document : Document} {separator : String} {resolver : Resolver}
    (reached : Advances document separator {} resolver) : resolver.SameKeys :=
  reached.sameKeys sameKeys_empty

/-- After any history of steps, an identifier is placed if it has a placement. -/
theorem Advances.isPlaced_iff {document : Document} {separator : String} {resolver : Resolver}
    (reached : Advances document separator {} resolver) {id : ItemId} :
    resolver.isPlaced id = true ↔ ∃ placement, resolver.placement? id = some placement :=
  (sameKeys_of_advances reached).isPlaced_iff

/-! ### What a step keeps -/

/-- A placement is final. -/
theorem Advance.placement? {document : Document} {separator : String}
    {resolver next : Resolver} (step : Advance document separator resolver next)
    {id : ItemId} {placement : Placement}
    (placed : resolver.placement? id = some placement) :
    next.placement? id = some placement := by
  have isPlaced : resolver.isPlaced id = true := isPlaced_of_placement? placed
  cases step with
  | settle fresh =>
      rw [placement?_place, if_neg]
      · exact placed
      · rintro rfl
        rw [fresh] at isPlaced
        cases isPlaced
  | anchor fresh =>
      rw [placement?_place, if_neg]
      · exact placed
      · rintro rfl
        rw [fresh] at isPlaced
        cases isPlaced
  | remember => simpa using placed
  | close => exact placed

theorem Advances.placement? {document : Document} {separator : String}
    {resolver next : Resolver} (steps : Advances document separator resolver next)
    {id : ItemId} {placement : Placement}
    (placed : resolver.placement? id = some placement) :
    next.placement? id = some placement := by
  induction steps with
  | refl => exact placed
  | tail _ step induction => exact step.placement? induction

theorem Advance.isPlaced {document : Document} {separator : String} {resolver next : Resolver}
    (step : Advance document separator resolver next) {id : ItemId}
    (placed : resolver.isPlaced id = true) : next.isPlaced id = true := by
  cases step with
  | settle => simp [placed]
  | anchor => simp [placed]
  | remember => simpa [Resolver.isPlaced] using placed
  | close => exact placed

theorem Advances.isPlaced {document : Document} {separator : String} {resolver next : Resolver}
    (steps : Advances document separator resolver next) {id : ItemId}
    (placed : resolver.isPlaced id = true) : next.isPlaced id = true := by
  induction steps with
  | refl => exact placed
  | tail _ step induction => exact step.isPlaced induction

/-- How an identifier that is placed after a step got its placement. -/
inductive Origin (document : Document) (separator : String) (resolver next : Resolver)
    (id : ItemId) : Placement → Prop
  /-- It was placed before. -/
  | kept {placement : Placement} : resolver.placement? id = some placement →
      Origin document separator resolver next id placement
  /-- It has been settled. -/
  | settled {item : Item} {placement : Placement} : resolver.isPlaced id = false →
      document.item? id = some item → pending? document resolver item = none →
      settle document separator resolver item = .ok placement →
      Origin document separator resolver next id placement
  /-- It has been anchored, and the cycle has been reported. -/
  | anchored {between : List ItemId} {repeated : Bool} :
      (id :: between ++ [id]).IsChain document.ContainedIn →
      ⟨⟨id, id :: between ++ [id]⟩, repeated⟩ ∈ next.reports →
      Origin document separator resolver next id ⟨[document.crateName], none, none⟩

theorem Advance.origin {document : Document} {separator : String} {resolver next : Resolver}
    (step : Advance document separator resolver next) {id : ItemId} {placement : Placement}
    (placed : next.placement? id = some placement) :
    Origin document separator resolver next id placement := by
  cases step with
  | settle fresh found pending settled =>
      rw [placement?_place] at placed
      split at placed
      · rename_i same
        subst same
        cases placed
        exact .settled fresh found pending settled
      · exact .kept placed
  | anchor fresh linked =>
      rw [placement?_place] at placed
      split at placed
      · rename_i same
        subst same
        cases placed
        exact .anchored linked (List.mem_append_right _ List.mem_cons_self)
      · exact .kept placed
  | remember => exact .kept (by simpa using placed)
  | close => exact .kept placed

theorem Leads.advances {document : Document} {separator : String} {resolver next : Resolver}
    (steps : Advances document separator resolver next) {id : ItemId} {path : ResolvedPath}
    (leads : Leads document resolver id path) : Leads document next id path := by
  induction leads with
  | declared found final placed => exact .declared found final (steps.placement? placed)
  | outside absent summary => exact .outside absent summary
  | through exposes _ induction => exact .through exposes induction

end ApiCensus.Resolver
