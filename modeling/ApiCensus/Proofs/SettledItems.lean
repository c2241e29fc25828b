import ApiCensus.Proofs.ResolverSteps
import ApiCensus.Proofs.Settling

/-!
# Settled items

What an item is settled by are the placements of its containers, and these are final.  So an item
that has been settled would be settled in the same way at any later time, and the reasons for its
place can be read off the resolver as it is.  The only other items that are placed lie on a cycle
of containers.
-/

namespace ApiCensus.Resolver

open Relation

variable {document : Document} {separator other : String} {resolver left right next : Resolver}
  {id : ItemId} {item : Item} {placement : Placement}

/-- The containers of the item in the index are placed alike. -/
def SameContainers (document : Document) (left right : Resolver) (item : Item) : Prop :=
  ∀ container ∈ item.parents, document.isLocal container = true →
    left.base? container = right.base? container ∧
      left.module? container = right.module? container

namespace SameContainers

theorem symm (same : SameContainers document left right item) :
    SameContainers document right left item :=
  fun container parent isLocal => (same container parent isLocal).imp Eq.symm Eq.symm

theorem stem (same : SameContainers document left right item) {container : ItemId}
    (parent : container ∈ item.parents) :
    stem document left container = stem document right container := by
  unfold Resolver.stem
  cases found : document.item? container with
  | none => rfl
  | some owner =>
      dsimp only
      rw [(same container parent (Document.isLocal_of_item?_eq_some found)).1]

theorem moduleBelow (same : SameContainers document left right item) {container : ItemId}
    (parent : container ∈ item.parents) :
    moduleBelow document left container = moduleBelow document right container := by
  unfold Resolver.moduleBelow
  cases found : document.item? container with
  | none => rfl
  | some owner =>
      dsimp only
      rw [(same container parent (Document.isLocal_of_item?_eq_some found)).2]

theorem candidates (same : SameContainers document left right item) {found : List Candidate}
    (foundOk : candidates document left item = .ok found) :
    Resolver.candidates document right item = .ok found := by
  rw [candidates_eq_ok_iff] at foundOk ⊢
  have inside : ∀ container ∈ item.parents.filter document.isKnown, container ∈ item.parents :=
    fun container => List.mem_of_mem_filter
  generalize item.parents.filter document.isKnown = containers at foundOk inside
  induction foundOk with
  | nil => exact .nil
  | cons first _ induction =>
      obtain ⟨parent, parents⟩ := List.forall_mem_cons.mp inside
      exact .cons ⟨same.stem parent ▸ first.1, first.2⟩ (induction parents)

/-- What an item is settled by are the placements of its containers. -/
theorem settle (same : SameContainers document left right item)
    (settled : settle document separator left item = .ok placement) :
    Resolver.settle document separator right item = .ok placement := by
  obtain ⟨found, ranked, foundOk, related, rfl⟩ := settle_eq_ok_iff.mp settled
  refine settle_eq_ok_iff.mpr ⟨found, ranked, same.candidates foundOk, related, ?_⟩
  have choices := map_snd_of_ranked related
  cases ranked with
  | nil => rfl
  | cons first rest =>
      have chosen : leastFrom first rest ∈ found := by
        apply mem_of_mem_admissible
        rw [← choices]
        exact leastFrom_mem first rest
      obtain ⟨parent, _⟩ := of_mem_candidates foundOk chosen
      simp only [placementBy, same.moduleBelow parent]

end SameContainers

theorem sameContainers_of_kept (keys : left.SameKeys)
    (ready : pending? document left item = none)
    (kept : ∀ id placement, left.placement? id = some placement →
      right.placement? id = some placement) :
    SameContainers document left right item := by
  intro container parent isLocal
  obtain ⟨placement, placed⟩ :=
    keys.isPlaced_iff.mp (isPlaced_of_pending?_eq_none ready parent isLocal)
  obtain ⟨base, _, module⟩ := placement?_eq_some_iff.mp placed
  obtain ⟨otherBase, _, otherModule⟩ :=
    placement?_eq_some_iff.mp (kept container placement placed)
  exact ⟨base.trans otherBase.symm, module.trans otherModule.symm⟩

/-- The item is settled in this way, and would be so again. -/
structure Settled (document : Document) (separator : String) (resolver : Resolver)
    (item : Item) (placement : Placement) : Prop where
  ready : pending? document resolver item = none
  settled : settle document separator resolver item = .ok placement

theorem Settled.advances (settled : Settled document separator resolver item placement)
    (keys : resolver.SameKeys) (steps : Advances document other resolver next) :
    Settled document separator next item placement where
  ready := by
    apply List.find?_eq_none.mpr
    intro container parent waits
    simp only [Bool.and_eq_true, Bool.not_eq_true'] at waits
    have still :=
      steps.isPlaced (isPlaced_of_pending?_eq_none settled.ready parent waits.1)
    rw [waits.2] at still
    cases still
  settled :=
    (sameContainers_of_kept keys settled.ready fun _ _ => steps.placement?).settle settled.settled

/-- An item that is placed has been settled, or anchored at the crate because of a cycle. -/
theorem settled_or_anchored (reached : Advances document separator {} resolver)
    (found : document.item? id = some item) (placed : resolver.placement? id = some placement) :
    Settled document separator resolver item placement ∨
      placement = ⟨[document.crateName], none, none⟩ ∧ TransGen document.ContainedIn id id := by
  induction reached generalizing placement with
  | refl => cases placed
  | @tail resolver next earlier step induction =>
      have keys := sameKeys_of_advances earlier
      cases step.origin placed with
      | kept before =>
          apply (induction before).imp_left
          intro settled
          exact settled.advances keys (.single step)
      | settled fresh otherFound ready settledOk =>
          cases found.symm.trans otherFound
          exact .inl (Settled.advances ⟨ready, settledOk⟩ keys (.single step))
      | @anchored between _ linked _ =>
          have closed : ClosedWalk document.ContainedIn (id :: between ++ [id]) :=
            ⟨linked, id, between, rfl⟩
          exact .inr ⟨rfl, closed.transGen (by simp) (by simp)⟩

end ApiCensus.Resolver
