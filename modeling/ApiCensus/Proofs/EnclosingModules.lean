import ApiCensus.Proofs.AdmissibleContainers

/-!
# Enclosing modules

The module of an item is handed down when the item is settled: a module gives itself to what lies
below it, and any other container gives the module that it has itself.  So the module of a
location is the nearest module on the chain of canonical parents, and there is none if the chain
ends before it meets one.

What lies below an ancestor has a path that begins with the stem of the ancestor.  The stem of a
module with a name is the path of that module, which is therefore a proper prefix of the paths of
all that it encloses.
-/

namespace ApiCensus

/-- Whether the identifier is a module of the index. -/
def Document.isModule (document : Document) (id : ItemId) : Bool :=
  (document.item? id).any (·.kind = .module)

namespace Resolver

variable {document : Document} {separator : String} {resolver : Resolver} {id container : ItemId}
  {placement place : Placement} {ancestors : List ItemId} {anchor : List String}

theorem Reason.module_eq_none (reason : Reason document separator resolver id placement)
    (top : placement.parent = none) : placement.module = none := by
  cases reason with
  | uncontained => rfl
  | below lies =>
      rw [lies.parent] at top
      cases top
  | circular => rfl

/-- The module of a placed item is the first module among its ancestors. -/
theorem module_eq_find? (coherent : document.Coherent)
    (reached : Advances document separator {} resolver)
    (lineage : Lineage document (PlacedBelow document resolver) id ancestors anchor)
    (placed : resolver.placement? id = some placement) :
    placement.module = ancestors.find? document.isModule := by
  induction lineage generalizing placement with
  | root below =>
      obtain ⟨top, reason⟩ := below.reason coherent reached placed
      exact reason.module_eq_none top
  | detached _ below =>
      obtain ⟨top, reason⟩ := below.reason coherent reached placed
      exact reason.module_eq_none top
  | outside below absent _ =>
      obtain ⟨parent, reason⟩ := below.reason coherent reached placed
      rw [(reason.liesBelow parent).module]
      simp [moduleBelow, absent]
  | @inside _ container _ _ below isLocal _ induction =>
      obtain ⟨parent, reason⟩ := below.reason coherent reached placed
      have lies := reason.liesBelow parent
      obtain ⟨owner, place, found, placeFound, _⟩ :=
        lies.inside (sameKeys_of_advances reached) isLocal
      have isModule : document.isModule container = decide (owner.kind = .module) := by
        simp [Document.isModule, found]
      rw [lies.module, moduleBelow_of_placed found placeFound, List.find?_cons, isModule]
      by_cases encloses : owner.kind = .module
      · simp [encloses]
      · simpa [encloses] using induction placeFound

/-- The base of a placed item begins with the stem of each of its ancestors. -/
theorem stem_prefix_base (coherent : document.Coherent)
    (reached : Advances document separator {} resolver)
    (lineage : Lineage document (PlacedBelow document resolver) id ancestors anchor)
    (placed : resolver.placement? id = some placement) {ancestor : ItemId}
    (member : ancestor ∈ ancestors) {segments : List String}
    (stemOk : stem document resolver ancestor = .ok segments) : segments <+: placement.base := by
  induction lineage generalizing placement with
  | root => cases member
  | detached => cases member
  | outside => cases member
  | inside below isLocal _ induction =>
      obtain ⟨parent, reason⟩ := below.reason coherent reached placed
      have lies := reason.liesBelow parent
      rcases List.mem_cons.mp member with rfl | higher
      · cases stemOk.symm.trans lies.stemOk
        exact List.prefix_refl _
      · obtain ⟨owner, place, _, placeFound, base⟩ :=
          lies.inside (sameKeys_of_advances reached) isLocal
        rw [base]
        exact (induction placeFound higher).trans (List.prefix_append _ _)

/-- The path of an ancestor that has a name is a prefix of the base. -/
theorem declaredPath_prefix_base (coherent : document.Coherent)
    (reached : Advances document separator {} resolver)
    (lineage : Lineage document (PlacedBelow document resolver) id ancestors anchor)
    (placed : resolver.placement? id = some placement) {ancestor : ItemId}
    (member : ancestor ∈ ancestors) {owner : Item} (found : document.item? ancestor = some owner)
    (placeFound : resolver.placement? ancestor = some place)
    (named : owner.properName?.isSome = true) :
    (declaredPath owner place).segments <+: placement.base := by
  obtain ⟨name, proper⟩ := Option.isSome_iff_exists.mp named
  have stemOk := stem_of_placed found placeFound
  have same : (declaredPath owner place).segments = place.base ++ owner.properName?.toList := by
    simp [declaredPath, Item.leaf, proper]
  rw [same]
  exact stem_prefix_base coherent reached lineage placed member stemOk

/-- The module of a location is the nearest module on the chain of canonical parents, if there is
one, and if that module has a name, its path is a proper prefix.  The location is found if the
containers above can be ordered. -/
theorem location_module {source : Index.Source} (loaded : Index.load source = .ok document)
    (separator : String) (questions : List Question) (inside : id ∈ document.ids) :
    (document.OrdersAbove id → ∃ path next,
      (location document separator id).run (after document separator questions) =
        (.ok path, next)) ∧
    ∀ path next, (location document separator id).run (after document separator questions) =
        (.ok path, next) →
      ∃ ancestors anchor, Lineage document (HasParent document separator next) id ancestors anchor ∧
        path.module = ancestors.find? document.isModule ∧
        ∀ enclosing, path.module = some enclosing → ∃ place,
          (location document separator enclosing).run next = (.ok place, next) ∧
          ((document.properName? enclosing).isSome = true →
            place.segments <+: path.segments ∧ place.segments ≠ path.segments) := by
  refine ⟨exists_location_of_ordersAbove (after_advances questions) inside, ?_⟩
  intro path next asked
  have coherent := Index.coherent_of_load loaded
  have reached := advances_of_location asked
  obtain ⟨item, placement, found, placed, rfl⟩ := of_location_eq_ok asked
  obtain ⟨ancestors, anchor, lineage, _, _⟩ := traced_of_placed coherent reached id placement placed
  have nearest := module_eq_find? coherent reached lineage placed
  refine ⟨ancestors, anchor, lineage.mono fun _ _ below => below.hasParent, nearest, ?_⟩
  intro enclosing isModule
  have member : enclosing ∈ ancestors := List.mem_of_find?_eq_some (nearest.symm.trans isModule)
  obtain ⟨_, owner, place, ownerFound, placeFound, _⟩ :=
    lineage.exists_parent enclosing (List.mem_cons_of_mem _ member)
  refine ⟨declaredPath owner place, run_location_of_placed ownerFound placeFound, ?_⟩
  intro named
  simp only [Document.properName?, ownerFound, Option.bind_some] at named
  obtain ⟨between, split⟩ :=
    declaredPath_prefix_base coherent reached lineage placed member ownerFound placeFound named
  have longer : (declaredPath item placement).segments =
      (declaredPath owner place).segments ++ (between ++ [item.leaf]) := by
    rw [← List.append_assoc, split]
    rfl
  rw [longer]
  exact ⟨List.prefix_append _ _, by simp⟩

/-- The item in two modules is enclosed by the one below which it lies, and its path begins with
the path of that module. -/
theorem twins_location_module :
    Index.load (.text Index.twinText) = .ok Index.twins ∧ "3" ∈ Index.twins.ids ∧
    ∃ ancestors anchor,
      Lineage Index.twins (HasParent Index.twins "::" twinPlaced) "3" ancestors anchor ∧
      some "1" = ancestors.find? Index.twins.isModule ∧ ∃ place,
        (location Index.twins "::" "1").run twinPlaced = (.ok place, twinPlaced) ∧
        place.segments <+: ["c", "a", "x"] ∧ place.segments ≠ ["c", "a", "x"] := by
  have inside : "3" ∈ Index.twins.ids := by decide
  obtain ⟨ancestors, anchor, lineage, nearest, enclosing⟩ :=
    (location_module Index.load_twins "::" [] inside).2 _ _ locate_twins
  obtain ⟨place, located, named⟩ := enclosing "1" rfl
  exact ⟨Index.load_twins, inside, ancestors, anchor, lineage, nearest, place, located, named rfl⟩

end Resolver

end ApiCensus
