import ApiCensus.Proofs.AdmissibleContainers
import ApiCensus.Proofs.OrderedContainers

/-!
# Shortest chains of containers

An item is put below the admissible container with the shortest stem, and so is each container
above it.  There may be exponentially many chains of admissible containers from an item up to
where they end, but choosing the shortest stem at each step is enough: no chain gives a path with
fewer segments than the location has, and the chain of canonical parents gives as many.

The chains are those of `Lineage` along admissible containers.  They end at an item without
containers, where paths start with the crate, or below a container that is known by its path
alone.
-/

namespace ApiCensus

open Relation

namespace Document

/-- The item may have this parent: an admissible container, or none if it has no container. -/
def MayLieBelow (document : Document) (id : ItemId) : Option ItemId → Prop
  | none => ∃ item, document.item? id = some item ∧ item.parents = []
  | some container => document.Admits id container

/-- The number of segments of a path along a chain: those at which the chain ends, one for each
container with a name, and the last one. -/
def pathLength (document : Document) (containers : List ItemId) (anchor : List String) : Nat :=
  anchor.length + (containers.filterMap document.properName?).length + 1

end Document

namespace Resolver

variable {document : Document} {separator : String} {resolver : Resolver} {id container : ItemId}
  {placement : Placement} {containers : List ItemId} {anchor : List String}

/-! ### Every chain is long enough -/

/-- An item without containers is put below none. -/
theorem eq_orphan_of_placed (coherent : document.Coherent)
    (reached : Advances document separator {} resolver) (top : document.MayLieBelow id none)
    (placed : resolver.placement? id = some placement) : placement = orphan document id := by
  obtain ⟨item, found, empty⟩ := top
  have uncontained : ∀ {other : Item} {container : ItemId}, document.item? id = some other →
      container ∉ other.parents := by
    intro other container otherFound
    cases found.symm.trans otherFound
    simp [empty]
  cases reason_of_placed coherent reached found placed with
  | uncontained => rfl
  | below lies =>
      obtain ⟨_, otherFound, parent, _⟩ := lies.admits
      exact absurd parent (uncontained otherFound)
  | circular cyclic =>
      obtain ⟨_, ⟨_, otherFound, parent, _⟩, _⟩ := TransGen.head'_iff.mp cyclic
      exact absurd parent (uncontained otherFound)

/-- An item with an admissible container is put below one, unless it lies on a cycle. -/
theorem exists_liesBelow (coherent : document.Coherent)
    (reached : Advances document separator {} resolver) (unlooped : document.Unlooped id)
    (admits : document.Admits id container) (placed : resolver.placement? id = some placement) :
    ∃ chosen, LiesBelow document separator resolver id placement chosen := by
  obtain ⟨item, found, parent, _⟩ := admits
  cases reason_of_placed coherent reached found placed with
  | uncontained otherFound empty =>
      cases found.symm.trans otherFound
      rw [empty] at parent
      cases parent
  | below lies => exact ⟨_, lies⟩
  | circular cyclic => exact absurd cyclic (unlooped id .refl)

/-- No chain of admissible containers gives a shorter base.  The induction is on the chain: its
first container was compared when the item was settled, and the stem of that container is no
longer than the rest of the chain makes it. -/
theorem base_length_le (coherent : document.Coherent)
    (reached : Advances document separator {} resolver) (unlooped : document.Unlooped id)
    (lineage : Lineage document document.MayLieBelow id containers anchor)
    (placed : resolver.placement? id = some placement) :
    placement.base.length ≤
      anchor.length + (containers.filterMap document.properName?).length := by
  induction lineage generalizing placement with
  | root top =>
      rw [eq_orphan_of_placed coherent reached top placed]
      simp [orphan]
  | detached notRoot top =>
      rw [eq_orphan_of_placed coherent reached top placed]
      simp [orphan, notRoot]
  | outside admits absent known =>
      obtain ⟨_, lies⟩ := exists_liesBelow coherent reached unlooped admits placed
      obtain ⟨segments, stemOk, shorter, _⟩ := lies.least _ admits
      cases stemOk.symm.trans (stem_of_outside absent known)
      simpa using shorter
  | inside admits isLocal _ induction =>
      obtain ⟨_, lies⟩ := exists_liesBelow coherent reached unlooped admits placed
      obtain ⟨segments, stemOk, shorter, _⟩ := lies.least _ admits
      rcases of_stem_eq_ok (sameKeys_of_advances reached) stemOk with
        ⟨owner, place, ownerFound, placeFound, rfl⟩ | ⟨absent, _⟩
      · have above := induction
          (Document.unlooped_iff.mp unlooped _ (admits.containedIn isLocal)) placeFound
        rw [← List.singleton_append, List.filterMap_append,
          filterMap_properName?_singleton ownerFound, List.length_append]
        rw [List.length_append] at shorter
        omega
      · simp [Document.isLocal, absent] at isLocal

/-! ### The chain of canonical parents -/

theorem PlacedBelow.mayLieBelow (coherent : document.Coherent)
    (reached : Advances document separator {} resolver) (unlooped : document.Unlooped id)
    {parent : Option ItemId} (below : PlacedBelow document resolver id parent) :
    document.MayLieBelow id parent := by
  obtain ⟨item, placement, found, placed, rfl⟩ := below
  cases reason_of_placed coherent reached found placed with
  | uncontained found empty => exact ⟨_, found, empty⟩
  | below lies =>
      rw [lies.parent]
      exact lies.admits
  | circular cyclic => exact absurd cyclic (unlooped id .refl)

/-- Where there is no cycle, the chain of canonical parents is one of admissible containers. -/
theorem lineage_mayLieBelow (coherent : document.Coherent)
    (reached : Advances document separator {} resolver) (unlooped : document.Unlooped id)
    (lineage : Lineage document (PlacedBelow document resolver) id containers anchor) :
    Lineage document document.MayLieBelow id containers anchor := by
  induction lineage with
  | root below => exact .root (below.mayLieBelow coherent reached unlooped)
  | detached notRoot below =>
      exact .detached notRoot (below.mayLieBelow coherent reached unlooped)
  | outside below absent known =>
      exact .outside (below.mayLieBelow coherent reached unlooped) absent known
  | inside below isLocal _ induction =>
      have admits := below.mayLieBelow coherent reached unlooped
      apply Lineage.inside admits isLocal
      apply induction
      exact Document.unlooped_iff.mp unlooped _ (Document.Admits.containedIn admits isLocal)

/-! ### Locations -/

/-- An item without cyclic ancestors is placed only after all its ancestors, and each of these
only if its containers can be ordered. -/
theorem ordersAbove_of_placed {source : Index.Source} (loaded : Index.load source = .ok document)
    (reached : Advances document separator {} resolver) (unlooped : document.Unlooped id)
    (placed : resolver.isPlaced id = true) : document.OrdersAbove id := by
  have coherent := Index.coherent_of_load loaded
  intro ancestor above item found container parent
  have placedAbove : resolver.isPlaced ancestor = true := by
    clear found
    induction above with
    | refl => exact placed
    | @tail middle ancestor upper contained induction =>
        obtain ⟨owner, ownerFound, listed, isLocal⟩ := contained
        obtain ⟨place, placeFound⟩ := reached.isPlaced_iff.mp induction
        rcases settled_or_anchored reached ownerFound placeFound with settled | ⟨_, cyclic⟩
        · exact isPlaced_of_pending?_eq_none settled.ready listed isLocal
        · exact absurd cyclic (unlooped middle upper)
  have member := (Document.mem_of_item?_eq_some found).1
  cases outside : document.isLocal container with
  | true => exact coherent.keyed container (Document.isLocal_iff_mem_ids.mp outside)
  | false =>
      obtain ⟨place, placeFound⟩ := reached.isPlaced_iff.mp placedAbove
      exact hasKey_of_placed reached found (Index.parents_of_load loaded member parent outside)
        (coherent.containersKnown item member container parent) outside placeFound

/-- The location of an item without cyclic ancestors is found exactly if the containers above can
be ordered.  It has as few segments as any chain of admissible containers gives, and some chain
gives just as many. -/
theorem location_shortest {source : Index.Source} (loaded : Index.load source = .ok document)
    (separator : String) (questions : List Question) (inside : id ∈ document.ids)
    (unlooped : document.Unlooped id) :
    ((∃ path next, (location document separator id).run (after document separator questions) =
        (.ok path, next)) ↔ document.OrdersAbove id) ∧
    ∀ path next, (location document separator id).run (after document separator questions) =
        (.ok path, next) →
      (∀ containers anchor, Lineage document document.MayLieBelow id containers anchor →
        path.segments.length ≤ document.pathLength containers anchor) ∧
      ∃ containers anchor, Lineage document document.MayLieBelow id containers anchor ∧
        path.segments.length = document.pathLength containers anchor := by
  have coherent := Index.coherent_of_load loaded
  refine ⟨⟨?_, exists_location_of_ordersAbove (after_advances questions) inside⟩, ?_⟩
  · rintro ⟨path, next, asked⟩
    obtain ⟨_, placement, _, placed, _⟩ := of_location_eq_ok asked
    apply ordersAbove_of_placed loaded (advances_of_location asked) unlooped
    exact isPlaced_of_placement? placed
  · intro path next asked
    have reached := advances_of_location asked
    obtain ⟨item, placement, found, placed, rfl⟩ := of_location_eq_ok asked
    have segments : (declaredPath item placement).segments.length = placement.base.length + 1 := by
      simp [declaredPath]
    rw [segments]
    constructor
    · intro containers anchor lineage
      exact Nat.succ_le_succ (base_length_le coherent reached unlooped lineage placed)
    · obtain ⟨ancestors, anchor, lineage, _, base⟩ :=
        traced_of_placed coherent reached id placement placed
      refine ⟨ancestors, anchor, lineage_mayLieBelow coherent reached unlooped lineage, ?_⟩
      rw [base, Document.pathLength, List.length_append, List.filterMap_reverse,
        List.length_reverse]

/-- Both modules of the item in two modules give three segments, as many as its location has. -/
theorem twins_location_shortest :
    Index.load (.text Index.twinText) = .ok Index.twins ∧ "3" ∈ Index.twins.ids ∧
    Index.twins.Unlooped "3" ∧ Index.twins.OrdersAbove "3" ∧
    (∀ containers anchor, Lineage Index.twins Index.twins.MayLieBelow "3" containers anchor →
      3 ≤ Index.twins.pathLength containers anchor) ∧
    ∃ containers anchor, Lineage Index.twins Index.twins.MayLieBelow "3" containers anchor ∧
      3 = Index.twins.pathLength containers anchor := by
  have inside : "3" ∈ Index.twins.ids := by decide
  obtain ⟨found, shortest⟩ := location_shortest Index.load_twins "::" [] inside Index.unlooped_twins
  obtain ⟨least, attained⟩ := shortest _ _ locate_twins
  have ordered := found.mp ⟨_, _, locate_twins⟩
  exact ⟨Index.load_twins, inside, Index.unlooped_twins, ordered, least, attained⟩

end Resolver

end ApiCensus
