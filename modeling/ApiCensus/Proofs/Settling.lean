import ApiCensus.Proofs.LoadedDocument
import ApiCensus.Proofs.ResolverSteps

/-!
# Settling an item

An item is settled when all its containers in the index are placed.  Its
candidates are the known containers with the segments that they give to their
members, and the item goes below the candidate of least rank among the admissible
ones.  If containers are known and identifiers can be ordered, settling succeeds.
-/

namespace ApiCensus.Resolver

variable {document : Document} {separator : String} {resolver : Resolver}

/-! ### Candidates -/

theorem candidates_eq_ok_iff {item : Item} {found : List Candidate} :
    candidates document resolver item = .ok found ↔
      List.Forall₂ (fun id candidate =>
          stem document resolver id = .ok candidate.stem ∧ candidate.id = id)
        (item.parents.filter document.isKnown) found := by
  unfold candidates
  rw [Outcome.mapM_eq_ok_iff]
  have same : ∀ id (candidate : Candidate),
      (do return ⟨← stem document resolver id, id⟩ : Except Failure Candidate) = .ok candidate ↔
        stem document resolver id = .ok candidate.stem ∧ candidate.id = id := by
    intro id candidate
    rw [Outcome.bind_eq_ok_iff]
    constructor
    · rintro ⟨segments, segmentsOk, same⟩
      cases same
      exact ⟨segmentsOk, rfl⟩
    · rintro ⟨segmentsOk, rfl⟩
      exact ⟨candidate.stem, segmentsOk, rfl⟩
  simp only [same]

theorem stem_of_base {id : ItemId} {item : Item} {base : List String}
    (found : document.item? id = some item) (placed : resolver.base? id = some base) :
    stem document resolver id = .ok (base ++ item.properName?.toList) := by
  simp [stem, found, placed]

theorem stem_of_placed {id : ItemId} {item : Item} {placement : Placement}
    (found : document.item? id = some item) (placed : resolver.placement? id = some placement) :
    stem document resolver id = .ok (placement.base ++ item.properName?.toList) :=
  stem_of_base found (placement?_eq_some_iff.mp placed).1

theorem stem_of_outside {id : ItemId} {summary : PathSummary}
    (absent : document.item? id = none) (known : document.summary? id = some summary) :
    stem document resolver id = .ok summary.segments := by
  simp [stem, absent, known]

/-- A stem comes from a placement or from a path summary. -/
theorem of_stem_eq_ok (keys : resolver.SameKeys) {id : ItemId} {segments : List String}
    (success : stem document resolver id = .ok segments) :
    (∃ item placement, document.item? id = some item ∧
      resolver.placement? id = some placement ∧
      segments = placement.base ++ item.properName?.toList) ∨
    (document.item? id = none ∧ ∃ summary, document.summary? id = some summary ∧
      segments = summary.segments) := by
  unfold stem at success
  split at success
  · rename_i item found
    split at success
    · rename_i base baseFound
      obtain ⟨placement, placed⟩ :=
        keys.isPlaced_iff.mp (Option.isSome_iff_exists.mpr ⟨base, baseFound⟩)
      cases (placement?_eq_some_iff.mp placed).1.symm.trans baseFound
      exact .inl ⟨item, placement, found, placed, (Except.ok.inj success).symm⟩
    · cases success
  · rename_i absent
    split at success
    · rename_i summary known
      exact .inr ⟨absent, summary, known, (Except.ok.inj success).symm⟩
    · cases success

theorem moduleBelow_of_placed {container : ItemId} {owner : Item} {placement : Placement}
    (found : document.item? container = some owner)
    (placed : resolver.placement? container = some placement) :
    moduleBelow document resolver container =
      if owner.kind = .module then some container else placement.module := by
  simp [moduleBelow, found, (placement?_eq_some_iff.mp placed).2.2]

theorem of_mem_candidates {item : Item} {found : List Candidate}
    (success : candidates document resolver item = .ok found) {candidate : Candidate}
    (member : candidate ∈ found) :
    candidate.id ∈ item.parents ∧ document.isKnown candidate.id = true ∧
      stem document resolver candidate.id = .ok candidate.stem := by
  have related := candidates_eq_ok_iff.mp success
  clear success
  generalize filtered : item.parents.filter document.isKnown = containers at related
  have inside : ∀ container ∈ containers,
      container ∈ item.parents ∧ document.isKnown container = true := by
    intro container containerMember
    rw [← filtered, List.mem_filter] at containerMember
    exact containerMember
  clear filtered
  induction related with
  | nil => cases member
  | @cons container first containers found firstOk _ induction =>
      rcases List.mem_cons.mp member with rfl | later
      · obtain ⟨stemOk, rfl⟩ := firstOk
        obtain ⟨parent, known⟩ := inside _ List.mem_cons_self
        exact ⟨parent, known, stemOk⟩
      · exact induction later fun other otherMember =>
          inside other (List.mem_cons_of_mem _ otherMember)

theorem mem_of_mem_admissible {id : ItemId} {found : List Candidate} {candidate : Candidate}
    (member : candidate ∈ admissible document id found) : candidate ∈ found := by
  unfold admissible at member
  dsimp only at member
  split at member
  · exact member
  · exact List.mem_of_mem_filter member

/-! ### The choice -/

theorem rank_eq_ok_iff {candidate : Candidate} {rank : Rank} :
    candidate.rank separator = .ok rank ↔
      ∃ key, ItemId.key candidate.id = .ok key ∧
        rank = ⟨candidate.stem.length, separator.intercalate candidate.stem, key⟩ := by
  unfold Candidate.rank
  rw [Outcome.bind_eq_ok_iff]
  constructor
  · rintro ⟨key, keyOk, same⟩
    exact ⟨key, Outcome.liftM_integer_eq_ok_iff.mp keyOk, (Except.ok.inj same).symm⟩
  · rintro ⟨key, keyOk, rfl⟩
    exact ⟨key, Outcome.liftM_integer_eq_ok_iff.mpr keyOk, rfl⟩

/-- The placement below the candidate of least rank. -/
def placementBy (document : Document) (resolver : Resolver) (id : ItemId) :
    List (Rank × Candidate) → Placement
  | [] => orphan document id
  | first :: rest =>
      let chosen := leastFrom first rest
      ⟨chosen.stem, some chosen.id, moduleBelow document resolver chosen.id⟩

theorem settle_eq_ok_iff {item : Item} {placement : Placement} :
    settle document separator resolver item = .ok placement ↔
      ∃ found ranked, candidates document resolver item = .ok found ∧
        List.Forall₂ (fun candidate pair =>
            candidate.rank separator = .ok pair.1 ∧ pair.2 = candidate)
          (admissible document item.id found) ranked ∧
        placement = placementBy document resolver item.id ranked := by
  have same : ∀ (candidate : Candidate) (pair : Rank × Candidate),
      (do return (← candidate.rank separator, candidate) : Except Failure (Rank × Candidate)) =
          .ok pair ↔
        candidate.rank separator = .ok pair.1 ∧ pair.2 = candidate := by
    intro candidate pair
    rw [Outcome.bind_eq_ok_iff]
    constructor
    · rintro ⟨rank, rankOk, same⟩
      cases same
      exact ⟨rankOk, rfl⟩
    · rintro ⟨rankOk, rfl⟩
      exact ⟨pair.1, rankOk, rfl⟩
  unfold settle
  rw [Outcome.bind_eq_ok_iff]
  constructor
  · rintro ⟨found, foundOk, success⟩
    obtain ⟨ranked, rankedOk, success⟩ := Outcome.bind_eq_ok_iff.mp success
    refine ⟨found, ranked, foundOk, ?_, ?_⟩
    · simpa only [same] using Outcome.mapM_eq_ok_iff.mp rankedOk
    · cases ranked with
      | nil => exact (Except.ok.inj success).symm
      | cons first rest => exact (Except.ok.inj success).symm
  · rintro ⟨found, ranked, foundOk, related, rfl⟩
    refine ⟨found, foundOk, Outcome.bind_eq_ok_iff.mpr ⟨ranked, ?_, ?_⟩⟩
    · apply Outcome.mapM_eq_ok_iff.mpr
      simpa only [same] using related
    · cases ranked with
      | nil => rfl
      | cons first rest => rfl

theorem leastFrom_mem (best : Rank × Candidate) (rest : List (Rank × Candidate)) :
    leastFrom best rest ∈ (best :: rest).map (·.2) := by
  induction rest generalizing best with
  | nil => simp [leastFrom]
  | cons next rest induction =>
      simp only [List.map_cons, List.mem_cons]
      by_cases lower : next.1.lt best.1 = true
      · rw [leastFrom, if_pos lower]
        exact .inr (List.mem_cons.mp (induction next))
      · rw [leastFrom, if_neg lower]
        rcases List.mem_cons.mp (induction best) with first | later
        · exact .inl first
        · exact .inr (.inr later)

theorem map_snd_of_ranked {choices : List Candidate} {ranked : List (Rank × Candidate)}
    (related : List.Forall₂ (fun candidate pair =>
      candidate.rank separator = .ok pair.1 ∧ pair.2 = candidate) choices ranked) :
    ranked.map (·.2) = choices := by
  induction related with
  | nil => rfl
  | cons first _ induction => simp [first.2, induction]

/-- An item is settled as an orphan if it has no candidates, else below one of
them. -/
theorem of_settle_eq_ok {item : Item} {placement : Placement}
    (success : settle document separator resolver item = .ok placement) :
    placement = orphan document item.id ∨
      ∃ container ∈ item.parents,
        stem document resolver container = .ok placement.base ∧
        placement.parent = some container ∧
        placement.module = moduleBelow document resolver container := by
  obtain ⟨found, ranked, foundOk, related, rfl⟩ := settle_eq_ok_iff.mp success
  have choices := map_snd_of_ranked related
  cases ranked with
  | nil => exact .inl rfl
  | cons first rest =>
      right
      have chosen : leastFrom first rest ∈ found := by
        apply mem_of_mem_admissible
        rw [← choices]
        exact leastFrom_mem first rest
      obtain ⟨member, _, stemOk⟩ := of_mem_candidates foundOk chosen
      exact ⟨_, member, stemOk, rfl, rfl⟩

/-! ### Settling succeeds -/

theorem hasKey_of_isKnown (coherent : document.Coherent)
    (keyed : ∀ entry ∈ document.paths, entry.1.HasKey) {id : ItemId}
    (known : document.isKnown id = true) : id.HasKey := by
  rcases Document.isKnown_iff.mp known with inside | outside
  · exact coherent.keyed id inside
  · obtain ⟨entry, member, rfl⟩ := List.mem_map.mp outside
    exact keyed entry member

theorem ordersContainers_of_keyed (coherent : document.Coherent)
    (keyed : ∀ entry ∈ document.paths, entry.1.HasKey) : document.OrdersContainers :=
  fun item member container parent =>
    hasKey_of_isKnown coherent keyed (coherent.containersKnown item member container parent)

theorem isPlaced_of_pending?_eq_none {item : Item} {container : ItemId}
    (settled : pending? document resolver item = none) (member : container ∈ item.parents)
    (isLocal : document.isLocal container = true) : resolver.isPlaced container = true := by
  have placed := List.find?_eq_none.mp settled container member
  simpa [isLocal] using placed

theorem exists_stem_eq_ok {item : Item} {container : ItemId}
    (settled : pending? document resolver item = none) (member : container ∈ item.parents)
    (known : document.isKnown container = true) :
    ∃ segments, stem document resolver container = .ok segments := by
  cases found : document.item? container with
  | some owner =>
      have placed := isPlaced_of_pending?_eq_none settled member
        (Document.isLocal_of_item?_eq_some found)
      obtain ⟨base, baseFound⟩ := Option.isSome_iff_exists.mp placed
      exact ⟨_, stem_of_base found baseFound⟩
  | none =>
      have outside : (document.summary? container).isSome = true := by
        simpa [Document.isKnown, Document.isLocal, found] using known
      obtain ⟨summary, summaryFound⟩ := Option.isSome_iff_exists.mp outside
      exact ⟨_, stem_of_outside found summaryFound⟩

/-- If the identifiers of its containers can be ordered, an item is settled once no container
is pending. -/
theorem exists_settle_eq_ok {item : Item} (ordered : ∀ container ∈ item.parents, container.HasKey)
    (settled : pending? document resolver item = none) :
    ∃ placement, settle document separator resolver item = .ok placement := by
  have stems : ∀ container ∈ item.parents.filter document.isKnown, ∃ candidate,
      (do return ⟨← stem document resolver container, container⟩ :
        Except Failure Candidate) = .ok candidate := by
    intro container member
    obtain ⟨parent, known⟩ := List.mem_filter.mp member
    obtain ⟨segments, segmentsOk⟩ := exists_stem_eq_ok settled parent known
    exact ⟨⟨segments, container⟩, Outcome.bind_eq_ok_iff.mpr ⟨segments, segmentsOk, rfl⟩⟩
  obtain ⟨found, foundOk⟩ : ∃ found, candidates document resolver item = .ok found :=
    Outcome.exists_mapM_eq_ok stems
  have ranks : ∀ candidate ∈ admissible document item.id found, ∃ pair,
      (do return (← candidate.rank separator, candidate) :
        Except Failure (Rank × Candidate)) = .ok pair := by
    intro candidate member
    obtain ⟨parent, _, _⟩ := of_mem_candidates foundOk (mem_of_mem_admissible member)
    obtain ⟨key, keyOk⟩ := ordered candidate.id parent
    have rankOk : candidate.rank separator = .ok ⟨candidate.stem.length,
        separator.intercalate candidate.stem, key⟩ :=
      rank_eq_ok_iff.mpr ⟨key, keyOk, rfl⟩
    exact ⟨_, Outcome.bind_eq_ok_iff.mpr ⟨_, rankOk, rfl⟩⟩
  obtain ⟨ranked, rankedOk⟩ := Outcome.exists_mapM_eq_ok ranks
  refine ⟨placementBy document resolver item.id ranked, ?_⟩
  refine Outcome.bind_eq_ok_iff.mpr ⟨found, foundOk, ?_⟩
  refine Outcome.bind_eq_ok_iff.mpr ⟨ranked, rankedOk, ?_⟩
  cases ranked with
  | nil => rfl
  | cons first rest => rfl

end ApiCensus.Resolver
