import ApiCensus.Proofs.Questions
import ApiCensus.Proofs.Settling
import ApiCensus.Proofs.TotalResolution

/-!
# The forest of canonical parents

The containers of an index may form any graph, but the canonical parents that a
resolver chooses form a forest.  An item is placed below a container that has been
placed before it, or it gets no parent.  So the chain of canonical parents of an
item ends, and the path of the item is read off that chain: the segments at which
the chain ends, the names of the ancestors from the outermost on, and the last
segment of the item itself.
-/

namespace ApiCensus

/-- The name of an item of the index, unless it is missing or empty. -/
def Document.properName? (document : Document) (id : ItemId) : Option String :=
  (document.item? id).bind (·.properName?)

/-- The ancestors of an item along canonical parents, the nearest first, and the
segments with which paths start where the chain ends. -/
inductive Lineage (document : Document) (hasParent : ItemId → Option ItemId → Prop) :
    ItemId → List ItemId → List String → Prop
  /-- The chain ends at the root. -/
  | root : hasParent document.root none → Lineage document hasParent document.root [] []
  /-- The chain ends at another item without a parent. -/
  | detached {id : ItemId} : id ≠ document.root → hasParent id none →
      Lineage document hasParent id [] [document.crateName]
  /-- The chain ends below a container that is known by its path alone. -/
  | outside {id container : ItemId} {summary : PathSummary} :
      hasParent id (some container) → document.item? container = none →
      document.summary? container = some summary →
      Lineage document hasParent id [] summary.segments
  /-- The chain goes on at a container of the index. -/
  | inside {id container : ItemId} {ancestors : List ItemId} {anchor : List String} :
      hasParent id (some container) → document.isLocal container = true →
      Lineage document hasParent container ancestors anchor →
      Lineage document hasParent id (container :: ancestors) anchor

namespace Lineage

variable {document : Document} {hasParent later : ItemId → Option ItemId → Prop}
  {id : ItemId} {ancestors : List ItemId} {anchor : List String}

theorem mono (weaker : ∀ id parent, hasParent id parent → later id parent)
    (lineage : Lineage document hasParent id ancestors anchor) :
    Lineage document later id ancestors anchor := by
  induction lineage with
  | root parent => exact .root (weaker _ _ parent)
  | detached other parent => exact .detached other (weaker _ _ parent)
  | outside parent absent known => exact .outside (weaker _ _ parent) absent known
  | inside parent isLocal _ induction => exact .inside (weaker _ _ parent) isLocal induction

theorem exists_parent (lineage : Lineage document hasParent id ancestors anchor) :
    ∀ member ∈ id :: ancestors, ∃ parent, hasParent member parent := by
  induction lineage with
  | root parent => exact List.forall_mem_singleton.mpr ⟨_, parent⟩
  | detached _ parent => exact List.forall_mem_singleton.mpr ⟨_, parent⟩
  | outside parent _ _ => exact List.forall_mem_singleton.mpr ⟨_, parent⟩
  | inside parent _ _ induction => exact List.forall_mem_cons.mpr ⟨⟨_, parent⟩, induction⟩

end Lineage

namespace Resolver

variable {document : Document} {separator : String}

/-- The identifier is an item that has been placed below the given parent. -/
def PlacedBelow (document : Document) (resolver : Resolver) (id : ItemId)
    (parent : Option ItemId) : Prop :=
  ∃ item placement, document.item? id = some item ∧
    resolver.placement? id = some placement ∧ placement.parent = parent

theorem PlacedBelow.advances {resolver next : Resolver}
    (steps : Advances document separator resolver next) (id : ItemId)
    (parent : Option ItemId) (placed : PlacedBelow document resolver id parent) :
    PlacedBelow document next id parent := by
  obtain ⟨item, placement, found, placementFound, same⟩ := placed
  exact ⟨item, placement, found, steps.placement? placementFound, same⟩

/-- What the lineage of a placed item says about its placement. -/
def Traced (document : Document) (resolver : Resolver) (id : ItemId)
    (placement : Placement) : Prop :=
  ∃ ancestors anchor,
    Lineage document (PlacedBelow document resolver) id ancestors anchor ∧
    (id :: ancestors).Nodup ∧
    placement.base = anchor ++ ancestors.reverse.filterMap document.properName?

theorem Traced.advances {resolver next : Resolver} {id : ItemId} {placement : Placement}
    (steps : Advances document separator resolver next)
    (traced : Traced document resolver id placement) : Traced document next id placement := by
  obtain ⟨ancestors, anchor, lineage, distinct, base⟩ := traced
  exact ⟨ancestors, anchor, lineage.mono (PlacedBelow.advances steps), distinct, base⟩

theorem traced_of_orphan {resolver : Resolver} {id : ItemId}
    (placed : PlacedBelow document resolver id none) :
    Traced document resolver id (orphan document id) := by
  by_cases isRoot : id = document.root
  · subst isRoot
    exact ⟨[], [], .root placed, by simp, by simp [orphan]⟩
  · exact ⟨[], [document.crateName], .detached isRoot placed, by simp,
      by simp [orphan, isRoot]⟩

theorem filterMap_properName?_singleton {container : ItemId} {owner : Item}
    (found : document.item? container = some owner) :
    [container].filterMap document.properName? = owner.properName?.toList := by
  cases named : owner.properName? with
  | none => simp [Document.properName?, found, named]
  | some name => simp [Document.properName?, found, named]

/-- An item below a container is traced by the way of the container. The container
was placed before the item, so that the item is new to the chain. -/
theorem traced_of_stem {resolver next : Resolver} (keys : resolver.SameKeys)
    (steps : Advances document separator resolver next)
    (traced : ∀ id placement, resolver.placement? id = some placement →
      Traced document resolver id placement)
    {id container : ItemId} {placement : Placement} (fresh : resolver.isPlaced id = false)
    (placed : PlacedBelow document next id (some container))
    (stemOk : stem document resolver container = .ok placement.base) :
    Traced document next id placement := by
  rcases of_stem_eq_ok keys stemOk with ⟨owner, ownerPlacement, found, ownerPlaced, base⟩ |
    ⟨absent, summary, known, base⟩
  · obtain ⟨ancestors, anchor, lineage, distinct, ownerBase⟩ := traced _ _ ownerPlaced
    refine ⟨container :: ancestors, anchor, ?_, ?_, ?_⟩
    · exact .inside placed (Document.isLocal_of_item?_eq_some found)
        (lineage.mono (PlacedBelow.advances steps))
    · refine List.nodup_cons.mpr ⟨?_, distinct⟩
      intro member
      obtain ⟨_, _, known, _, placementFound, _⟩ := lineage.exists_parent id member
      rw [isPlaced_of_placement? placementFound] at fresh
      cases fresh
    · rw [base, ownerBase, List.reverse_cons, List.filterMap_append,
        filterMap_properName?_singleton found, List.append_assoc]
  · refine ⟨[], summary.segments, .outside placed absent known, by simp, ?_⟩
    simp [base]

/-- Every placed item can be traced, after any number of steps. -/
theorem traced_of_placed (coherent : document.Coherent) {resolver : Resolver}
    (reached : Advances document separator {} resolver) :
    ∀ id placement, resolver.placement? id = some placement →
      Traced document resolver id placement := by
  induction reached with
  | refl =>
      intro id placement placed
      cases placed
  | @tail resolver next earlier step induction =>
      have keys := sameKeys_of_advances earlier
      have steps : Advances document separator resolver next := .single step
      intro id placement placed
      have below : ∀ item, document.item? id = some item →
          PlacedBelow document next id placement.parent :=
        fun item found => ⟨item, placement, found, placed, rfl⟩
      cases step.origin placed with
      | kept before => exact (induction id placement before).advances steps
      | @settled item _ fresh found _ settledOk =>
          rcases of_settle_eq_ok settledOk with isOrphan | ⟨container, _, stemOk, parent, _⟩
          · rw [(Document.mem_of_item?_eq_some found).2] at isOrphan
            subst isOrphan
            exact traced_of_orphan (below item found)
          · have placedBelow := below item found
            rw [parent] at placedBelow
            exact traced_of_stem keys steps induction fresh placedBelow stemOk
      | anchored linked _ =>
          -- The root has no container, so that it is never on a cycle.
          obtain ⟨container, _, item, found, listed, _⟩ :=
            ClosedWalk.exists_link_of_mem linked List.mem_cons_self
          have notRoot : id ≠ document.root := by
            intro isRoot
            obtain ⟨member, sameId⟩ := Document.mem_of_item?_eq_some found
            rw [coherent.rootFree item member (sameId.trans isRoot)] at listed
            cases listed
          exact ⟨[], [document.crateName], .detached notRoot (below item found), by simp, by simp⟩

/-- The location of the identifier is known to the resolver, with the given parent:
asking for it changes nothing. -/
def HasParent (document : Document) (separator : String) (resolver : Resolver)
    (id : ItemId) (parent : Option ItemId) : Prop :=
  ∃ path, (location document separator id).run resolver = (.ok path, resolver) ∧
    path.parent = parent

theorem PlacedBelow.hasParent {resolver : Resolver} {id : ItemId} {parent : Option ItemId}
    (placed : PlacedBelow document resolver id parent) :
    HasParent document separator resolver id parent := by
  obtain ⟨item, placement, found, placementFound, same⟩ := placed
  exact ⟨declaredPath item placement, run_location_of_placed found placementFound, same⟩

/-- Canonical parents form a forest, and the segments of a location are read off the
chain of parents: the anchor where the chain ends, the names of the ancestors from
the outermost on, and the last segment of the item. -/
theorem location_lineage {source : Index.Source} (loaded : Index.load source = .ok document)
    (separator : String) (questions : List Question) {id : ItemId} {path : ResolvedPath}
    {next : Resolver}
    (asked : (location document separator id).run (after document separator questions) =
      (.ok path, next)) :
    ∃ item ancestors anchor, document.item? id = some item ∧
      (location document separator id).run next = (.ok path, next) ∧
      Lineage document (HasParent document separator next) id ancestors anchor ∧
      (id :: ancestors).Nodup ∧
      path.segments =
        anchor ++ ancestors.reverse.filterMap document.properName? ++ [item.leaf] := by
  have steps := @location_advances document separator (after document separator questions) id
  rw [asked] at steps
  have reached : Advances document separator {} next := (after_advances questions).trans steps
  obtain ⟨item, placement, found, placed, rfl⟩ := of_location_eq_ok asked
  obtain ⟨ancestors, anchor, lineage, distinct, base⟩ :=
    traced_of_placed (Index.coherent_of_load loaded) reached id placement placed
  refine ⟨item, ancestors, anchor, found, run_location_of_placed found placed, ?_, distinct, ?_⟩
  · apply lineage.mono
    rintro other parent ⟨otherItem, otherPlacement, otherFound, otherPlaced, same⟩
    exact ⟨declaredPath otherItem otherPlacement,
      run_location_of_placed otherFound otherPlaced, same⟩
  · rw [← base]
    rfl

/-- The forest of the tangled index, in which two items contain each other. -/
theorem tangled_location_lineage : ∃ document path next,
    Index.load (.text Index.tangledText) = .ok document ∧
    (location document "::" "1").run (after document "::" [.location "2"]) = (.ok path, next) ∧
    ∃ item ancestors anchor, document.item? "1" = some item ∧
      (location document "::" "1").run next = (.ok path, next) ∧
      Lineage document (HasParent document "::" next) "1" ancestors anchor ∧
      ("1" :: ancestors).Nodup ∧
      path.segments =
        anchor ++ ancestors.reverse.filterMap document.properName? ++ [item.leaf] := by
  obtain ⟨document, loaded, keyed, ids, _⟩ := Index.load_tangledText
  obtain ⟨path, next, asked⟩ : ∃ path next, (location document "::" "1").run
      (after document "::" [.location "2"]) = (.ok path, next) := by
    apply exists_location_eq_ok (Index.coherent_of_load loaded) keyed (after_advances _)
    rw [ids]
    decide
  exact ⟨document, path, next, loaded, asked, location_lineage loaded "::" _ asked⟩

end Resolver

end ApiCensus
