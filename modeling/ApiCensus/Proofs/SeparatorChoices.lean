import ApiCensus.Proofs.FinalAnswers
import ApiCensus.Proofs.JoinedNames
import ApiCensus.Proofs.ParallelRuns
import ApiCensus.Proofs.SettledItems

/-!
# Choices that do not depend on the separator

Runs with two separators are in step, so they end with the same placements exactly if they make
the same choices.  To see whether they do, it suffices to look at the end of one of them: the
other separator must choose the same container again for every item that lies below one.  It does
so if no character of any name stands between the first characters of the separators.
-/

namespace ApiCensus

/-- All texts that the segments of containers are taken from. -/
def Document.words (document : Document) : List String :=
  document.crateName :: (document.items.flatMap (·.properName?.toList) ++
    document.paths.flatMap (·.2.segments))

namespace Resolver

variable {document : Document} {separator other : String} {resolver left right next : Resolver}
  {id : ItemId} {item : Item} {placement : Placement}

theorem of_uncontained (reached : Advances document separator {} resolver)
    (placed : resolver.placement? id = some placement) (uncontained : placement.parent = none) :
    placement = ⟨[], none, none⟩ ∨ placement = ⟨[document.crateName], none, none⟩ := by
  obtain ⟨item, found⟩ := Document.exists_item_of_mem_ids (mem_ids_of_placed reached placed)
  rcases settled_or_anchored reached found placed with settled | anchored
  · rcases of_settle_eq_ok settled.settled with rfl | ⟨container, _, _, contained, _⟩
    · unfold orphan
      split
      · exact .inl rfl
      · exact .inr rfl
    · rw [uncontained] at contained
      cases contained
  · exact .inr anchored.1

/-! ### The same choices -/

/-- With the other separator, every item below a container would be put there again. -/
def SettlesAlike (document : Document) (other : String) (resolver : Resolver) : Prop :=
  ∀ id item placement, document.item? id = some item → resolver.placement? id = some placement →
    placement.parent.isSome = true → settle document other resolver item = .ok placement

section

variable {last otherLast : Resolver}

/-- A separator has no say in the placements of items that lie below no container. -/
theorem Parallel.eq_of_uncontained (parallel : Parallel last otherLast)
    (reached : Advances document separator {} last)
    (otherReached : Advances document other {} otherLast)
    (placed : last.placement? id = some placement) (uncontained : placement.parent = none) :
    otherLast.placement? id = some placement := by
  have related := parallel.placements id
  rw [placed] at related
  generalize otherPlaced : otherLast.placement? id = found at related
  cases related with
  | @some _ otherPlacement same =>
      have otherUncontained : otherPlacement.parent = none := by
        have contained := same.contained
        rw [uncontained] at contained
        simpa using contained.symm
      have depth := same.depth
      rcases of_uncontained reached placed uncontained with rfl | rfl <;>
        rcases of_uncontained otherReached otherPlaced otherUncontained with rfl | rfl
      · rfl
      · cases depth
      · cases depth
      · rfl

/-- An item whose containers are placed alike goes to the same place if both runs put it below
the same container, or if the other separator chooses the container of the first run. -/
theorem Settled.eq_of_choice {otherPlacement : Placement}
    (settled : Settled document separator left item placement)
    (otherSettled : Settled document other right item otherPlacement)
    (same : SameContainers document left right item) (contained : placement.parent.isSome = true)
    (choice : placement.parent = otherPlacement.parent ∨
      settle document other left item = .ok placement) :
    otherPlacement = placement := by
  rcases choice with sameParent | again
  · rcases of_settle_eq_ok settled.settled with rfl | ⟨container, parent, stemOk, below, around⟩
    · cases contained
    · rcases of_settle_eq_ok otherSettled.settled with rfl |
        ⟨otherContainer, _, otherStemOk, otherBelow, otherAround⟩
      · rw [sameParent] at contained
        cases contained
      · rw [below, otherBelow] at sameParent
        cases sameParent
        cases placement
        cases otherPlacement
        dsimp only at stemOk below around otherStemOk otherBelow otherAround
        rw [same.stem parent] at stemOk
        cases stemOk.symm.trans otherStemOk
        rw [below, otherBelow, around, otherAround, same.moduleBelow parent]
  · cases (same.settle again).symm.trans otherSettled.settled
    rfl

/-- If both runs choose alike, what one has placed the other has placed in the same way. -/
theorem Parallel.placement?_of_choices (parallel : Parallel last otherLast)
    (reached : Advances document separator {} last)
    (otherReached : Advances document other {} otherLast)
    (choices : ∀ id item placement otherPlacement, document.item? id = some item →
      last.placement? id = some placement → otherLast.placement? id = some otherPlacement →
      placement.parent.isSome = true → placement.parent = otherPlacement.parent ∨
        settle document other last item = .ok placement)
    (placed : last.placement? id = some placement) :
    otherLast.placement? id = some placement := by
  -- Containers are placed before what they contain, so the induction is on the first run.
  suffices along : ∀ resolver, Advances document separator {} resolver →
      Advances document separator resolver last → ∀ id placement,
      resolver.placement? id = some placement → otherLast.placement? id = some placement from
    along last reached .refl id placement placed
  intro resolver before
  induction before with
  | refl =>
      intro _ id placement placed
      cases placed
  | @tail resolver next before step induction =>
      intro later id placement placed
      have earlier := induction (.head step later)
      have placedLast := later.placement? placed
      by_cases contained : placement.parent.isSome = true
      · cases step.origin placed with
        | kept kept => exact earlier id placement kept
        | anchored => cases contained
        | @settled item _ fresh found ready settledOk =>
            have related := parallel.placements id
            rw [placedLast] at related
            generalize otherPlaced : otherLast.placement? id = there at related
            cases related with
            | @some _ otherPlacement same =>
                rcases settled_or_anchored otherReached found otherPlaced with otherSettled |
                  ⟨rfl, _⟩
                · have choice := choices id item placement otherPlacement found placedLast
                    otherPlaced contained
                  have onward : Advances document separator resolver last := .head step later
                  have keys := sameKeys_of_advances before
                  have back :=
                    (sameContainers_of_kept keys ready fun _ _ => onward.placement?).symm
                  rw [Settled.eq_of_choice ⟨ready, settledOk⟩ otherSettled
                    (sameContainers_of_kept keys ready earlier) contained
                    (choice.imp_right back.settle)]
                · rw [same.contained] at contained
                  cases contained
      · rw [Option.not_isSome_iff_eq_none] at contained
        exact parallel.eq_of_uncontained reached otherReached placedLast contained

end

/-! ### The same paths -/

theorem Canonical.parent {path : ResolvedPath} (canonical : Canonical document resolver id path) :
    ∃ placement, resolver.placement? id = some placement ∧ path.parent = placement.parent := by
  cases canonical with
  | declared _ _ placed => exact ⟨_, placed, rfl⟩
  | exposed _ _ placed _ => exact ⟨_, placed, rfl⟩
  | circling _ _ placed _ => exact ⟨_, placed, rfl⟩

theorem Leads.of_placements
    (kept : ∀ id placement, left.placement? id = some placement →
      right.placement? id = some placement) {path : ResolvedPath}
    (leads : Leads document left id path) : Leads document right id path := by
  induction leads with
  | declared found final placed => exact .declared found final (kept _ _ placed)
  | outside absent summary => exact .outside absent summary
  | through exposes _ induction => exact .through exposes induction

theorem Canonical.of_placements
    (kept : ∀ id placement, left.placement? id = some placement →
      right.placement? id = some placement) {path : ResolvedPath}
    (canonical : Canonical document left id path) : Canonical document right id path := by
  cases canonical with
  | declared found plain placed => exact .declared found plain (kept _ _ placed)
  | exposed found exposing placed leads =>
      exact .exposed found exposing (kept _ _ placed) (leads.of_placements kept)
  | circling found exposing placed circles =>
      exact .circling found exposing (kept _ _ placed) circles

section

variable {paths otherPaths : List (ItemId × ResolvedPath)} {last otherLast : Resolver}

theorem exists_path_of_placed (run : (resolveAll document separator).run {} = (.ok paths, last))
    (placed : last.placement? id = some placement) : ∃ path, (id, path) ∈ paths := by
  have reached := @resolveAll_advances document separator {} .refl
  rw [run] at reached
  obtain ⟨ids, sorted, resolves⟩ := of_resolveAll_eq_ok run
  have inside := (ItemId.sort_perm sorted).mem_iff.mpr (mem_ids_of_placed reached placed)
  rw [← resolves.paths_ids] at inside
  obtain ⟨⟨_, path⟩, member, rfl⟩ := List.mem_map.mp inside
  exact ⟨path, member⟩

/-- Runs with two separators give the same paths exactly if the other separator, at the end of
the first run, chooses all containers again. -/
theorem paths_eq_iff (run : (resolveAll document separator).run {} = (.ok paths, last))
    (otherRun : (resolveAll document other).run {} = (.ok otherPaths, otherLast)) :
    paths = otherPaths ↔ SettlesAlike document other last := by
  have reached := @resolveAll_advances document separator {} .refl
  have otherReached := @resolveAll_advances document other {} .refl
  have inStep := resolveAll_inStep document separator other
  obtain ⟨ids, sorted, resolves⟩ := of_resolveAll_eq_ok run
  obtain ⟨otherIds, otherSorted, otherResolves⟩ := of_resolveAll_eq_ok otherRun
  cases sorted.symm.trans otherSorted
  have canonical := resolves.canonical .refl
  have otherCanonical := otherResolves.canonical .refl
  rw [run, otherRun] at inStep
  rw [run] at reached
  rw [otherRun] at otherReached
  cases inStep with
  | ok pairs parallel =>
      constructor
      · rintro rfl id item placement found placed contained
        have kept : ∀ id placement, last.placement? id = some placement →
            otherLast.placement? id = some placement := by
          intro id placement placed
          apply parallel.placement?_of_choices reached otherReached _ placed
          intro id item placement otherPlacement _ placed otherPlaced _
          obtain ⟨path, member⟩ := exists_path_of_placed run placed
          obtain ⟨_, same, parent⟩ := (canonical _ member).parent
          obtain ⟨_, otherSame, otherParent⟩ := (otherCanonical _ member).parent
          cases placed.symm.trans same
          cases otherPlaced.symm.trans otherSame
          exact .inl (parent.symm.trans otherParent)
        rcases settled_or_anchored otherReached found (kept id placement placed) with settled |
          ⟨rfl, _⟩
        · have ready := (pending?_parallel parallel item).trans settled.ready
          have keys := sameKeys_of_advances reached
          exact (sameContainers_of_kept keys ready kept).symm.settle settled.settled
        · cases contained
      · intro alike
        have kept : ∀ id placement, last.placement? id = some placement →
            otherLast.placement? id = some placement := by
          intro id placement placed
          apply parallel.placement?_of_choices reached otherReached _ placed
          intro id item placement otherPlacement found placed _ contained
          exact .inr (alike id item placement found placed contained)
        have again := resolveList_of_canonical otherReached fun pair member =>
          (canonical pair member).of_placements kept
        have otherAgain := resolveList_of_canonical otherReached otherCanonical
        rw [resolves.paths_ids, ← otherResolves.paths_ids] at again
        exact Except.ok.inj (again.symm.trans otherAgain)

end

/-! ### Names that the separators order alike -/

theorem stem_words (keys : resolver.SameKeys)
    (placed : ∀ id placement, resolver.placement? id = some placement →
      placement.base ⊆ document.words) {segments : List String}
    (stemOk : stem document resolver id = .ok segments) : segments ⊆ document.words := by
  rcases of_stem_eq_ok keys stemOk with ⟨item, placement, found, isPlaced, rfl⟩ |
    ⟨_, summary, known, rfl⟩
  · apply List.append_subset.mpr
    refine ⟨placed id placement isPlaced, ?_⟩
    intro name inside
    have member := (Document.mem_of_item?_eq_some found).1
    simp only [Document.words, List.mem_cons, List.mem_append, List.mem_flatMap]
    exact .inr (.inl ⟨item, member, inside⟩)
  · intro segment inside
    obtain ⟨before, after, split, _⟩ := List.lookup_eq_some_iff.mp known
    simp only [Document.words, List.mem_cons, List.mem_append, List.mem_flatMap]
    exact .inr (.inr ⟨(id, summary), by simp [split], inside⟩)

theorem base_words (reached : Advances document separator {} resolver)
    (placed : resolver.placement? id = some placement) : placement.base ⊆ document.words := by
  induction reached generalizing id placement with
  | refl => cases placed
  | tail earlier step induction =>
      cases step.origin placed with
      | kept before => exact induction before
      | settled _ _ _ settledOk =>
          rcases of_settle_eq_ok settledOk with rfl | ⟨container, _, stemOk, _⟩
          · unfold orphan
            split
            · exact List.nil_subset _
            · simp [Document.words]
          · exact stem_words (sameKeys_of_advances earlier) (fun _ _ => induction) stemOk
      | anchored => simp [Document.words]

/-- If the separators order the names of a document alike, all containers are chosen again. -/
theorem settlesAlike_of_clear (nonempty : separator ≠ "") (otherNonempty : other ≠ "")
    (reached : Advances document separator {} resolver)
    (clear : ∀ text ∈ document.words, Text.Clear separator other text) :
    SettlesAlike document other resolver := by
  intro id item placement found placed contained
  rcases settled_or_anchored reached found placed with settled | ⟨rfl, _⟩
  · apply settle_of_clear nonempty otherNonempty settled.settled
    intro container _ segments stemOk text inside
    apply clear
    exact stem_words (sameKeys_of_advances reached) (fun _ _ => base_words reached) stemOk inside
  · cases contained

end Resolver

end ApiCensus
