import ApiCensus.Proofs.LoadedDocument
import Mathlib.Data.Fintype.Card
import Mathlib.Data.List.Chain
import Mathlib.Data.Set.Finite.List
import Mathlib.Logic.Relation

/-!
# The graphs of an index

Two relations link the items of an index: an item is contained in the containers
that list it, and a re-export exposes its target.  Both may have cycles.  A closed
walk shows a cycle: it runs along links and comes back to where it started.

A re-export exposes one target only, so the walk from a re-export is determined,
and the members of a closed walk are all that can be reached from any of them.
-/

namespace ApiCensus

open Relation

namespace Document

/-- The item is listed by a container that is in the index. -/
def ContainedIn (document : Document) (id container : ItemId) : Prop :=
  ∃ item, document.item? id = some item ∧ container ∈ item.parents ∧
    document.isLocal container = true

/-- The item is a re-export with a target. -/
def Exposes (document : Document) (id target : ItemId) : Prop :=
  ∃ item, document.item? id = some item ∧ item.kind = .reexport ∧
    item.reexportTarget = some target

/-- Each of two items is enclosed by the other. -/
def Entangled (document : Document) (id other : ItemId) : Prop :=
  TransGen document.ContainedIn id other ∧ TransGen document.ContainedIn other id

/-- No item that encloses the given one, itself included, lies on a cycle of
containers. -/
def Unlooped (document : Document) (id : ItemId) : Prop :=
  ∀ ancestor, ReflTransGen document.ContainedIn id ancestor →
    ¬ TransGen document.ContainedIn ancestor ancestor

/-- The containers of the item, and of all items that enclose it, have a place in the order of
identifiers. -/
def OrdersAbove (document : Document) (id : ItemId) : Prop :=
  ∀ ancestor, ReflTransGen document.ContainedIn id ancestor → ∀ item,
    document.item? ancestor = some item → ∀ container ∈ item.parents, container.HasKey

instance {document : Document} {id container : ItemId} :
    Decidable (document.ContainedIn id container) :=
  decidable_of_iff ((document.item? id).any fun item =>
    item.parents.contains container && document.isLocal container)
    (by simp [ContainedIn, Option.any_eq_true])

theorem ContainedIn.isLocal {document : Document} {id container : ItemId}
    (contained : document.ContainedIn id container) : document.isLocal container = true := by
  obtain ⟨_, _, _, inside⟩ := contained
  exact inside

theorem ContainedIn.mem_ids {document : Document} {id container : ItemId}
    (contained : document.ContainedIn id container) : container ∈ document.ids :=
  isLocal_iff_mem_ids.mp contained.isLocal

theorem OrdersAbove.above {document : Document} {id container : ItemId}
    (ordered : document.OrdersAbove id) (contained : document.ContainedIn id container) :
    document.OrdersAbove container :=
  fun ancestor above => ordered ancestor (.head contained above)

theorem OrdersContainers.ordersAbove {document : Document} (ordered : document.OrdersContainers)
    (id : ItemId) : document.OrdersAbove id :=
  fun _ _ item found => ordered item (mem_of_item?_eq_some found).1

/-- An item has no cyclic ancestors exactly if its containers have none. -/
theorem unlooped_iff {document : Document} {id : ItemId} :
    document.Unlooped id ↔
      ∀ container, document.ContainedIn id container → document.Unlooped container := by
  constructor
  · intro unlooped container contained ancestor above
    exact unlooped ancestor (.head contained above)
  · intro containers ancestor reached cyclic
    rcases reached.cases_head with rfl | ⟨container, contained, above⟩
    · obtain ⟨container, contained, back⟩ := TransGen.head'_iff.mp cyclic
      exact containers container contained id back cyclic
    · exact containers container contained ancestor above cyclic

/-- Only finitely many items can be reached along containers, so an item without
cyclic ancestors is accessible: recursion along its containers ends. -/
theorem Unlooped.accessible {document : Document} {id : ItemId}
    (unlooped : document.Unlooped id) :
    Acc (fun container member => document.ContainedIn member container) id := by
  let Above := { ancestor // ReflTransGen document.ContainedIn id ancestor }
  have finite : Finite Above := by
    apply Set.Finite.subset (List.finite_toSet (id :: document.ids))
    intro ancestor above
    rcases above.cases_tail with rfl | ⟨_, _, contained⟩
    · exact List.mem_cons_self
    · exact List.mem_cons_of_mem _ contained.mem_ids
  let encloses : Above → Above → Prop :=
    fun outer inner => TransGen document.ContainedIn inner.1 outer.1
  have transitive : IsTrans Above encloses := ⟨fun _ _ _ upper lower => lower.trans upper⟩
  have irreflexive : Std.Irrefl encloses :=
    ⟨fun ancestor cyclic => unlooped ancestor.1 ancestor.2 cyclic⟩
  have founded : WellFounded encloses := Finite.wellFounded_of_trans_of_irrefl encloses
  have accessible : ∀ ancestor : Above,
      Acc (fun container member => document.ContainedIn member container) ancestor.1 := by
    intro ancestor
    induction ancestor using founded.induction with
    | _ ancestor induction =>
        constructor
        intro container contained
        exact induction ⟨container, ancestor.2.tail contained⟩ (.single contained)
  exact accessible ⟨id, .refl⟩

theorem Entangled.trans {document : Document} {left middle right : ItemId}
    (first : document.Entangled left middle) (second : document.Entangled middle right) :
    document.Entangled left right :=
  ⟨first.1.trans second.1, second.2.trans first.2⟩

theorem Entangled.exists_container {document : Document} {id other : ItemId}
    (entangled : document.Entangled id other) :
    ∃ container, document.ContainedIn other container ∧ document.Entangled id container := by
  obtain ⟨forth, back⟩ := entangled
  obtain ⟨container, contained, above⟩ := TransGen.head'_iff.mp back
  exact ⟨container, contained, forth.tail contained,
    TransGen.trans_right above (forth.trans back)⟩

theorem Exposes.unique {document : Document} (id left right : ItemId)
    (exposesLeft : document.Exposes id left) (exposesRight : document.Exposes id right) :
    left = right := by
  obtain ⟨item, found, _, target⟩ := exposesLeft
  obtain ⟨other, otherFound, _, otherTarget⟩ := exposesRight
  rw [found] at otherFound
  cases otherFound
  rw [target] at otherTarget
  exact Option.some.inj otherTarget

theorem Exposes.mem_ids {document : Document} {id target : ItemId}
    (exposes : document.Exposes id target) : id ∈ document.ids := by
  obtain ⟨item, found, _⟩ := exposes
  exact isLocal_iff_mem_ids.mp (isLocal_of_item?_eq_some found)

end Document

/-! ### Closed walks -/

/-- A walk along links that ends where it starts. -/
def ClosedWalk (link : ItemId → ItemId → Prop) (walk : List ItemId) : Prop :=
  walk.IsChain link ∧ ∃ start between, walk = start :: between ++ [start]

namespace ClosedWalk

variable {link : ItemId → ItemId → Prop} {walk : List ItemId}

theorem chain_transGen {path : List ItemId} (linked : path.IsChain link) :
    path.Pairwise (TransGen link) :=
  List.isChain_iff_pairwise.mp (linked.imp fun _ _ => TransGen.single)

theorem reaches_of_isChain {path : List ItemId} (linked : path.IsChain link) {first : ItemId}
    (starts : [first] <+: path) {member : ItemId} (inside : member ∈ path) :
    ReflTransGen link first member := by
  obtain ⟨rest, rfl⟩ := starts
  rw [List.singleton_append, List.mem_cons] at inside
  rcases inside with rfl | later
  · exact .refl
  · exact ((List.pairwise_cons.mp (chain_transGen linked)).1 member later).to_reflTransGen

/-- Every member of a closed walk leads to every member. -/
theorem transGen (closed : ClosedWalk link walk) {source target : ItemId}
    (sourceMember : source ∈ walk) (targetMember : target ∈ walk) :
    TransGen link source target := by
  obtain ⟨linked, start, between, rfl⟩ := closed
  have ordered := chain_transGen linked
  rw [List.cons_append, List.pairwise_cons, List.pairwise_append] at ordered
  obtain ⟨fromStart, _, _, toStart⟩ := ordered
  have around : TransGen link start start := fromStart start (by simp)
  have leaves : TransGen link source start := by
    rw [List.cons_append, List.mem_cons, List.mem_append, List.mem_singleton] at sourceMember
    rcases sourceMember with rfl | inner | rfl
    · exact around
    · exact toStart source inner start (by simp)
    · exact around
  have arrives : TransGen link start target := by
    rw [List.cons_append, List.mem_cons] at targetMember
    rcases targetMember with rfl | later
    · exact around
    · exact fromStart target later
  exact leaves.trans arrives

theorem start_mem (closed : ClosedWalk link walk) : ∃ start, start ∈ walk := by
  obtain ⟨_, start, between, rfl⟩ := closed
  exact ⟨start, by simp⟩

/-- A link from an item back to itself along others gives a closed walk. -/
theorem exists_of_transGen {id : ItemId} (cyclic : TransGen link id id) :
    ∃ walk, ClosedWalk link walk ∧ id ∈ walk := by
  obtain ⟨next, first, back⟩ := TransGen.head'_iff.mp cyclic
  obtain ⟨rest, linked, last⟩ := List.exists_isChain_cons_of_relationReflTransGen back
  refine ⟨id :: next :: rest, ⟨?_, id, (next :: rest).dropLast, ?_⟩, by simp⟩
  · exact List.isChain_cons_cons.mpr ⟨first, linked⟩
  · rw [List.cons_append]
    nth_rewrite 3 [← last]
    rw [List.dropLast_append_getLast]

/-- All but the last identifier of a chain are linked to a later one. -/
theorem exists_link_of_mem {path : List ItemId} {last : ItemId}
    (linked : (path ++ [last]).IsChain link) {source : ItemId} (member : source ∈ path) :
    ∃ target ∈ path ++ [last], link source target := by
  induction path with
  | nil => cases member
  | cons first path induction =>
      have tail : (path ++ [last]).IsChain link := linked.tail
      rcases List.mem_cons.mp member with rfl | later
      · cases path with
        | nil =>
            rw [List.singleton_append, List.isChain_pair] at linked
            exact ⟨last, by simp, linked⟩
        | cons second path =>
            rw [List.cons_append, List.cons_append, List.isChain_cons_cons] at linked
            exact ⟨second, by simp, linked.1⟩
      · obtain ⟨target, targetMember, linkFound⟩ := induction tail later
        exact ⟨target, List.mem_cons_of_mem _ targetMember, linkFound⟩

theorem exists_link (closed : ClosedWalk link walk) {source : ItemId}
    (member : source ∈ walk) : ∃ target ∈ walk, link source target := by
  obtain ⟨linked, start, between, rfl⟩ := closed
  apply exists_link_of_mem linked
  rw [List.mem_append, List.mem_singleton] at member
  rcases member with inner | rfl
  · exact inner
  · exact List.mem_cons_self

/-- Where links are determined, a closed walk holds all that its members reach. -/
theorem mem_iff_reaches (closed : ClosedWalk link walk)
    (determined : ∀ id left right, link id left → link id right → left = right)
    {source target : ItemId} (sourceMember : source ∈ walk) :
    target ∈ walk ↔ ReflTransGen link source target := by
  constructor
  · intro targetMember
    exact (closed.transGen sourceMember targetMember).to_reflTransGen
  · intro reached
    induction reached with
    | refl => exact sourceMember
    | @tail middle next _ linkNext middleMember =>
        obtain ⟨successor, successorMember, linkSuccessor⟩ := closed.exists_link middleMember
        rw [determined _ _ _ linkNext linkSuccessor]
        exact successorMember

end ClosedWalk

end ApiCensus
