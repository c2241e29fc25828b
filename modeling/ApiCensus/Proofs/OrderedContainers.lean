import ApiCensus.Proofs.AnalysisStages

/-!
# Containers that cannot be ordered

The containers of an item are compared by their identifiers, also if there is only one.  An item
below an external container whose identifier has no place in the order is therefore never placed,
and an analysis of its document fails.  This is the only obstacle: under a regular configuration
an index that can be loaded is analysed exactly if all containers can be ordered.
-/

namespace ApiCensus

open Relation

namespace Index

/-- An item below a container outside of the index has no other container. -/
theorem parents_of_load {source : Source} {document : Document}
    (loaded : load source = .ok document) {item : Item} (member : item ∈ document.items)
    {container : ItemId} (parent : container ∈ item.parents)
    (outside : document.isLocal container = false) : item.parents = [container] := by
  obtain ⟨text, top, _, _, valueOk⟩ := load_eq_ok_iff.mp loaded
  obtain ⟨index, entries, listed, stages⟩ := ofValue_eq_ok_iff.mp valueOk
  obtain ⟨entry, _, itemOk⟩ := Outcome.exists_of_mem_mapM stages.itemsOk member
  have containersOk := (yields_of_itemOf_eq_ok itemOk).containersOk
  rcases mem_of_parents_eq_ok containersOk parent with owned | listing
  · by_cases isRoot : entry.id = document.root
    · rw [parents_of_root isRoot] at containersOk
      rw [← Except.ok.inj containersOk] at parent
      cases parent
    · rw [parents_of_owner isRoot owned] at containersOk
      exact (Except.ok.inj containersOk).symm
  · rw [stages.listed_ids, ← stages.items_ids] at listing
    rw [Document.isLocal_iff_mem_ids.mpr listing] at outside
    cases outside

end Index

namespace Resolver

variable {document : Document} {separator : String} {item : Item} {container : ItemId}

theorem admissible_singleton (document : Document) (id : ItemId) (candidate : Candidate) :
    admissible document id [candidate] = [candidate] := by
  by_cases owner : implementsOn document candidate.id id = true
  · simp [admissible, owner]
  · simp [admissible, owner]

/-- Even the only container of an item is compared. -/
theorem hasKey_of_settle {resolver : Resolver} {placement : Placement}
    (single : item.parents = [container]) (known : document.isKnown container = true)
    (settled : settle document separator resolver item = .ok placement) : container.HasKey := by
  obtain ⟨found, ranked, foundOk, related, _⟩ := settle_eq_ok_iff.mp settled
  have stems := candidates_eq_ok_iff.mp foundOk
  rw [single, List.filter_cons_of_pos known, List.filter_nil] at stems
  cases stems with
  | @cons _ candidate _ _ first rest =>
      cases rest
      obtain ⟨_, rfl⟩ := first
      rw [admissible_singleton] at related
      cases related with
      | cons ranks _ =>
          obtain ⟨key, keyOk, _⟩ := rank_eq_ok_iff.mp ranks.1
          exact ⟨key, keyOk⟩

/-- An item below a single external container lies on no cycle of containers, so that it can only
be placed by comparing this container. -/
theorem hasKey_of_placed {resolver : Resolver} {id : ItemId} {placement : Placement}
    (reached : Advances document separator {} resolver)
    (found : document.item? id = some item) (single : item.parents = [container])
    (known : document.isKnown container = true) (outside : document.isLocal container = false)
    (placed : resolver.placement? id = some placement) : container.HasKey := by
  induction reached generalizing placement with
  | refl => cases placed
  | tail _ step induction =>
      cases step.origin placed with
      | kept before => exact induction before
      | settled _ itemFound _ settled =>
          cases found.symm.trans itemFound
          exact hasKey_of_settle single known settled
      | @anchored between _ linked _ =>
          obtain ⟨next, rest, walk⟩ : ∃ next rest, between ++ [id] = next :: rest :=
            List.exists_cons_of_ne_nil (by simp)
          rw [List.cons_append, walk, List.isChain_cons_cons] at linked
          obtain ⟨other, otherFound, parent, inside⟩ := linked.1
          cases found.symm.trans otherFound
          rw [single, List.mem_singleton] at parent
          rw [parent, outside] at inside
          cases inside

/-- If all items are resolved, all containers can be ordered. -/
theorem ordersContainers_of_resolveAll {source : Index.Source}
    (loaded : Index.load source = .ok document) {paths : List (ItemId × ResolvedPath)}
    {last : Resolver} (resolved : (resolveAll document separator).run {} = (.ok paths, last)) :
    document.OrdersContainers := by
  have coherent := Index.coherent_of_load loaded
  intro item member container parent
  cases outside : document.isLocal container with
  | true => exact coherent.keyed container (Document.isLocal_iff_mem_ids.mp outside)
  | false =>
      have inside : item.id ∈ document.ids := List.mem_map_of_mem member
      have found := coherent.item?_id member
      rw [run_resolveAll] at resolved
      cases sorted : document.sortedIds with
      | error cause =>
          rw [sorted] at resolved
          cases resolved
      | ok ids =>
          rw [sorted] at resolved
          have resolves := resolves_of_run_eq_ok resolved
          obtain ⟨placement, placed⟩ := (resolves.advances .refl).isPlaced_iff.mp
            (resolves.isPlaced ((ItemId.sort_perm sorted).mem_iff.mpr inside))
          exact hasKey_of_placed (resolves.advances .refl) found
            (Index.parents_of_load loaded member parent outside)
            (coherent.containersKnown item member container parent) outside placed

end Resolver

namespace Config.Regular

variable {config : Value} {source : Index.Source} {document : Document}

theorem exists_examine_iff (regular : Regular config)
    (loaded : Index.load source = .ok document) :
    (∃ analyzed, Analysis.examine config source = .ok analyzed) ↔ document.OrdersContainers := by
  constructor
  · rintro ⟨analyzed, examined⟩
    obtain ⟨sameLoaded, resolved, _⟩ := Analysis.examine_eq_ok_iff.mp examined
    cases loaded.symm.trans sameLoaded
    obtain ⟨separator, _, resolved⟩ := Outcome.bind_eq_ok_iff.mp resolved
    obtain ⟨paths, pathsOk, _⟩ := Outcome.bind_eq_ok_iff.mp resolved
    exact Resolver.ordersContainers_of_resolveAll loaded (Prod.ext pathsOk rfl)
  · exact regular.exists_examine_eq_ok loaded

/-- Under a regular configuration the analysis of an index that can be loaded succeeds exactly if
its containers can be ordered. -/
theorem exists_run_iff (regular : Regular config) (loaded : Index.load source = .ok document)
    (grouping : Grouping) :
    (∃ analysis, Analysis.run [source] grouping config = .ok analysis) ↔
      document.OrdersContainers := by
  rw [← regular.exists_examine_iff loaded]
  constructor
  · rintro ⟨analysis, succeeded⟩
    obtain ⟨documents, documentsOk, _⟩ := Outcome.bind_eq_ok_iff.mp succeeded
    obtain ⟨analyzed, _, examined⟩ := Outcome.exists_mem_of_mapM documentsOk List.mem_cons_self
    exact ⟨analyzed, examined⟩
  · intro examined
    exact regular.exists_run_eq_ok [source] grouping (List.forall_mem_singleton.mpr examined)

end Config.Regular

end ApiCensus
