import ApiCensus.Proofs.TotalResolution
import Mathlib.Data.List.MinMax

/-!
# Locations by plain recursion

Where an item is declared can be said without a stack and without memory.  The
item goes below one of its known containers: below a type that lists it as an impl
block if there is one, and below the container whose stem is least otherwise, by
length, then by name, then by the identifier of the container.  The stems of the
containers are found in the same way.

The recursion is made for items with no cycle among their ancestors, where it
ends.  A resolver gives the same answer for them, whatever it was asked before and
whatever cycles there are elsewhere.
-/

namespace ApiCensus

open Relation

/-- What containers are compared by: the length of a stem, its name, and the key of
an identifier. -/
def Standing : Type :=
  ℕ ×ₗ String ×ₗ ℕ ×ₗ ℤ ×ₗ String

instance : LinearOrder Standing :=
  inferInstanceAs (LinearOrder (ℕ ×ₗ String ×ₗ ℕ ×ₗ ℤ ×ₗ String))

/-- The standing of a container with a stem. -/
def Standing.of (separator : String) (stem : List String) (key : IdKey) : Standing :=
  toLex (stem.length, toLex (separator.intercalate stem, key.triple))

/-- A container with the segments and the module that it gives to its members, and
its place in the order of identifiers. -/
structure Offer where
  container : ItemId
  stem : List String
  module : Option ItemId
  key : IdKey

namespace Offer

/-- How an offer stands among others. -/
def standing (separator : String) (offer : Offer) : Standing :=
  .of separator offer.stem offer.key

/-- Whether the container is a type that lists the item as an impl block. -/
def isOwner (document : Document) (id : ItemId) (offer : Offer) : Bool :=
  (document.item? offer.container).any fun owner =>
    decide (owner.kind ∈ [.struct, .enum, .union]) && owner.impls.contains id

/-- The placement of an item that has the given offers. -/
def choose (document : Document) (separator : String) (id : ItemId) (offers : List Offer) :
    Placement :=
  let owners := offers.filter (isOwner document id)
  match (if owners.isEmpty then offers else owners).argmin (standing separator) with
  | some chosen => ⟨chosen.stem, some chosen.container, chosen.module⟩
  | none => ⟨if id = document.root then [] else [document.crateName], none, none⟩

end Offer

/-- An item with no cycle among its ancestors. -/
structure Grounded (document : Document) where
  id : ItemId
  unlooped : document.Unlooped id

namespace Grounded

variable {document : Document}

/-- A container of an item with no cycle among its ancestors is one, too. -/
def above (member : Grounded document) {container : ItemId}
    (contained : document.ContainedIn member.id container) : Grounded document :=
  ⟨container, Document.unlooped_iff.mp member.unlooped container contained⟩

/-- Recursion along containers ends. -/
instance : WellFoundedRelation (Grounded document) where
  rel container member := document.ContainedIn member.id container.id
  wf := ⟨fun member => InvImage.accessible Grounded.id member.unlooped.accessible⟩

end Grounded

mutual

/-- The placement of an item by recursion along its containers. -/
def plainPlacement (document : Document) (separator : String) (member : Grounded document) :
    Option Placement := do
  let item ← document.item? member.id
  let offers ← (item.parents.filter document.isKnown).mapM fun container =>
    plainOffer document separator member container
  return Offer.choose document separator member.id offers
termination_by (member, 1)
decreasing_by
  exact Prod.Lex.right _ Nat.zero_lt_one

/-- What a container gives to a member. -/
def plainOffer (document : Document) (separator : String) (member : Grounded document)
    (container : ItemId) : Option Offer := do
  let key ← (ItemId.key container).toOption
  if contained : document.ContainedIn member.id container then
    let owner ← document.item? container
    let placement ← plainPlacement document separator (member.above contained)
    let module := if owner.kind = .module then some container else placement.module
    return ⟨container, placement.base ++ owner.properName?.toList, module, key⟩
  else
    let summary ← document.summary? container
    return ⟨container, summary.segments, none, key⟩
termination_by (member, 0)
decreasing_by
  exact Prod.Lex.left _ _ contained

end

/-- Where an item is declared, by plain recursion. -/
def plainLocation (document : Document) (separator : String) (member : Grounded document) :
    Option ResolvedPath := do
  let item ← document.item? member.id
  let placement ← plainPlacement document separator member
  return {
    segments := placement.base ++ [item.leaf]
    parent := placement.parent
    module := placement.module }

namespace Resolver

variable {document : Document} {separator : String} {resolver : Resolver}

/-! ### Ranks -/

/-- How a candidate with this rank stands. -/
def Rank.standing (rank : Rank) : Standing :=
  toLex (rank.length, toLex (rank.joined, rank.key.triple))

theorem Rank.lt_iff {left right : Rank} :
    left.lt right = true ↔ left.standing < right.standing := by
  change _ ↔ toLex (left.length, toLex (left.joined, left.key.triple)) <
    toLex (right.length, toLex (right.joined, right.key.triple))
  simp [Rank.lt, Prod.Lex.toLex_lt_toLex, IdKey.lt_iff]

theorem lt_iff_standing_lt {left right : Candidate} {leftRank rightRank : Rank}
    {leftKey rightKey : IdKey} (leftOk : left.rank separator = .ok leftRank)
    (rightOk : right.rank separator = .ok rightRank)
    (leftKeyOk : ItemId.key left.id = .ok leftKey)
    (rightKeyOk : ItemId.key right.id = .ok rightKey) :
    leftRank.lt rightRank = true ↔
      Standing.of separator left.stem leftKey < .of separator right.stem rightKey := by
  obtain ⟨_, sameLeft, rfl⟩ := rank_eq_ok_iff.mp leftOk
  obtain ⟨_, sameRight, rfl⟩ := rank_eq_ok_iff.mp rightOk
  cases leftKeyOk.symm.trans sameLeft
  cases rightKeyOk.symm.trans sameRight
  exact Rank.lt_iff

/-- What an offer has in common with a candidate. -/
structure Offered (document : Document) (resolver : Resolver) (candidate : Candidate)
    (offer : Offer) : Prop where
  container : offer.container = candidate.id
  stem : offer.stem = candidate.stem
  module : offer.module = moduleBelow document resolver candidate.id
  key : ItemId.key candidate.id = .ok offer.key

theorem Offered.isOwner_eq {candidate : Candidate} {offer : Offer}
    (offered : Offered document resolver candidate offer) (id : ItemId) :
    offer.isOwner document id = implementsOn document candidate.id id := by
  unfold Offer.isOwner implementsOn
  rw [offered.container]
  cases document.item? candidate.id with
  | none => rfl
  | some owner =>
      have sameKinds : decide (owner.kind ∈ [.struct, .enum, .union]) = owner.kind.isType := by
        cases owner.kind <;> rfl
      rw [Option.any_some, sameKinds]

theorem offered_admissible {found : List Candidate} {offers : List Offer} (id : ItemId)
    (offered : List.Forall₂ (Offered document resolver) found offers) :
    List.Forall₂ (Offered document resolver) (admissible document id found)
      (if (offers.filter (Offer.isOwner document id)).isEmpty then offers
        else offers.filter (Offer.isOwner document id)) := by
  have owners : List.Forall₂ (Offered document resolver)
      (found.filter fun candidate => implementsOn document candidate.id id)
      (offers.filter (Offer.isOwner document id)) := by
    refine List.rel_filter ?_ offered
    intro candidate offer same
    dsimp only
    rw [same.isOwner_eq id]
  unfold admissible
  dsimp only
  generalize found.filter (fun candidate => implementsOn document candidate.id id) = left at owners
  generalize offers.filter (Offer.isOwner document id) = right at owners
  cases owners with
  | nil => exact offered
  | cons first rest => exact .cons first rest

/-- The candidate of least rank is the least offer. -/
theorem argmin_offered {best : Rank × Candidate} {ranked : List (Rank × Candidate)}
    {offer : Offer} {offers : List Offer}
    (bestRank : best.2.rank separator = .ok best.1)
    (bestOffered : Offered document resolver best.2 offer)
    (ranks : ∀ pair ∈ ranked, pair.2.rank separator = .ok pair.1)
    (offered : List.Forall₂ (fun pair offer => Offered document resolver pair.2 offer)
      ranked offers) :
    ∃ chosen, (offer :: offers).argmin (Offer.standing separator) = some chosen ∧
      Offered document resolver (leastFrom best ranked) chosen := by
  induction offered generalizing best offer with
  | nil => exact ⟨offer, rfl, bestOffered⟩
  | @cons next nextOffer ranked offers nextOffered _ induction =>
      have nextRank := ranks next List.mem_cons_self
      have laterRanks : ∀ pair ∈ ranked, pair.2.rank separator = .ok pair.1 :=
        fun pair member => ranks pair (List.mem_cons_of_mem _ member)
      have compared : next.1.lt best.1 = true ↔
          nextOffer.standing separator < offer.standing separator := by
        rw [lt_iff_standing_lt nextRank bestRank nextOffered.key bestOffered.key]
        rw [Offer.standing, Offer.standing, nextOffered.stem, bestOffered.stem]
      -- Both sides go through the list from the left and change only for a lesser one.
      by_cases lower : nextOffer.standing separator < offer.standing separator
      · have step : (offer :: nextOffer :: offers).argmin (Offer.standing separator) =
            (nextOffer :: offers).argmin (Offer.standing separator) := by
          simp [List.argmin, List.argAux, lower]
        rw [leastFrom, if_pos (compared.mpr lower), step]
        exact induction nextRank nextOffered laterRanks
      · have step : (offer :: nextOffer :: offers).argmin (Offer.standing separator) =
            (offer :: offers).argmin (Offer.standing separator) := by
          simp [List.argmin, List.argAux, lower]
        rw [leastFrom, if_neg (mt compared.mp lower), step]
        exact induction bestRank bestOffered laterRanks

theorem rank_of_ranked {choices : List Candidate} {ranked : List (Rank × Candidate)}
    (related : List.Forall₂ (fun candidate pair =>
      candidate.rank separator = .ok pair.1 ∧ pair.2 = candidate) choices ranked) :
    ∀ pair ∈ ranked, pair.2.rank separator = .ok pair.1 := by
  induction related with
  | nil => simp
  | cons first _ induction =>
      obtain ⟨rankOk, rfl⟩ := first
      exact List.forall_mem_cons.mpr ⟨rankOk, induction⟩

/-- A resolver and the plain recursion choose alike. -/
theorem choose_eq_placementBy {id : ItemId} {found : List Candidate} {offers : List Offer}
    {ranked : List (Rank × Candidate)}
    (offered : List.Forall₂ (Offered document resolver) found offers)
    (related : List.Forall₂ (fun candidate pair =>
      candidate.rank separator = .ok pair.1 ∧ pair.2 = candidate)
      (admissible document id found) ranked) :
    Offer.choose document separator id offers = placementBy document resolver id ranked := by
  have choices := offered_admissible id offered
  rw [← map_snd_of_ranked related, List.forall₂_map_left_iff] at choices
  have ranks := rank_of_ranked related
  unfold Offer.choose
  dsimp only
  generalize (if (offers.filter (Offer.isOwner document id)).isEmpty then offers
    else offers.filter (Offer.isOwner document id)) = admitted at choices
  cases choices with
  | nil => rfl
  | @cons first offer rest admitted firstOffered restOffered =>
      obtain ⟨firstRank, restRanks⟩ := List.forall_mem_cons.mp ranks
      obtain ⟨chosen, least, same⟩ :=
        argmin_offered firstRank firstOffered restRanks restOffered
      rw [least]
      dsimp only [placementBy]
      rw [same.stem, same.container, same.module]

/-! ### The recursion -/

/-- The placements that a resolver has found for items without cyclic ancestors are
those of the plain recursion. -/
def AgreesWithPlain (document : Document) (separator : String) (resolver : Resolver) : Prop :=
  ∀ (member : Grounded document) (placement : Placement),
    resolver.placement? member.id = some placement →
      plainPlacement document separator member = some placement

/-- A container offers by recursion the stem that it has in the resolver. -/
theorem exists_plainOffer (keys : resolver.SameKeys)
    (agrees : AgreesWithPlain document separator resolver)
    {member : Grounded document} {candidate : Candidate} (keyed : candidate.id.HasKey)
    (contained : document.isLocal candidate.id = true →
      document.ContainedIn member.id candidate.id)
    (stemOk : stem document resolver candidate.id = .ok candidate.stem) :
    ∃ offer, plainOffer document separator member candidate.id = some offer ∧
      Offered document resolver candidate offer := by
  obtain ⟨key, keyOk⟩ := keyed
  refine ⟨⟨candidate.id, candidate.stem, moduleBelow document resolver candidate.id, key⟩,
    ?_, ⟨rfl, rfl, rfl, keyOk⟩⟩
  rcases of_stem_eq_ok keys stemOk with ⟨owner, placement, found, placed, same⟩ |
    ⟨absent, summary, known, same⟩
  · have inside := contained (Document.isLocal_of_item?_eq_some found)
    have plain := agrees (member.above inside) placement placed
    rw [plainOffer, keyOk, found, same, moduleBelow_of_placed found placed]
    simp [Except.toOption, inside, plain]
  · have outside : ¬ document.ContainedIn member.id candidate.id := by
      intro inside
      simpa [Document.isLocal, absent] using inside.isLocal
    rw [plainOffer, keyOk, known, same]
    simp [Except.toOption, outside, moduleBelow, absent]

theorem exists_plainOffers {member : Grounded document} {containers : List ItemId}
    {found : List Candidate}
    (related : List.Forall₂ (fun id candidate =>
      stem document resolver id = .ok candidate.stem ∧ candidate.id = id) containers found)
    (offer : ∀ candidate : Candidate, candidate.id ∈ containers →
      stem document resolver candidate.id = .ok candidate.stem →
      ∃ offer, plainOffer document separator member candidate.id = some offer ∧
        Offered document resolver candidate offer) :
    ∃ offers, containers.mapM (plainOffer document separator member) = some offers ∧
      List.Forall₂ (Offered document resolver) found offers := by
  induction related with
  | nil => exact ⟨[], rfl, .nil⟩
  | @cons container candidate containers found firstOk _ induction =>
      obtain ⟨stemOk, rfl⟩ := firstOk
      obtain ⟨first, firstMade, firstOffered⟩ := offer candidate List.mem_cons_self stemOk
      obtain ⟨rest, restMade, restOffered⟩ := induction fun other otherMember =>
        offer other (List.mem_cons_of_mem _ otherMember)
      refine ⟨first :: rest, ?_, .cons firstOffered restOffered⟩
      rw [List.mapM_cons, firstMade, restMade]
      rfl

theorem plainPlacement_of_settle (keys : resolver.SameKeys) (coherent : document.Coherent)
    (keyed : ∀ entry ∈ document.paths, entry.1.HasKey)
    (agrees : AgreesWithPlain document separator resolver) {member : Grounded document}
    {item : Item} {placement : Placement} (found : document.item? member.id = some item)
    (settled : settle document separator resolver item = .ok placement) :
    plainPlacement document separator member = some placement := by
  obtain ⟨candidates, ranked, candidatesOk, related, rfl⟩ := settle_eq_ok_iff.mp settled
  obtain ⟨offers, made, offered⟩ : ∃ offers,
      (item.parents.filter document.isKnown).mapM (plainOffer document separator member) =
        some offers ∧ List.Forall₂ (Offered document resolver) candidates offers := by
    apply exists_plainOffers (candidates_eq_ok_iff.mp candidatesOk)
    intro candidate containerMember stemOk
    obtain ⟨listed, known⟩ := List.mem_filter.mp containerMember
    refine exists_plainOffer keys agrees (hasKey_of_isKnown coherent keyed known) ?_ stemOk
    intro isLocal
    exact ⟨item, found, listed, isLocal⟩
  rw [(Document.mem_of_item?_eq_some found).2] at related ⊢
  rw [plainPlacement, found]
  change ((item.parents.filter document.isKnown).mapM
    (plainOffer document separator member) >>= fun offers =>
      some (Offer.choose document separator member.id offers)) = _
  rw [made, ← choose_eq_placementBy offered related]
  rfl

/-- Whatever a resolver was asked, it agrees with the plain recursion: only an item
on a cycle is ever anchored. -/
theorem agreesWithPlain (coherent : document.Coherent)
    (keyed : ∀ entry ∈ document.paths, entry.1.HasKey)
    (reached : Advances document separator {} resolver) :
    AgreesWithPlain document separator resolver := by
  induction reached with
  | refl =>
      intro member placement placed
      cases placed
  | @tail resolver next earlier step induction =>
      have keys := sameKeys_of_advances earlier
      intro member placement placed
      cases step.origin placed with
      | kept before => exact induction member placement before
      | settled _ found _ settledOk =>
          exact plainPlacement_of_settle keys coherent keyed induction found settledOk
      | @anchored between _ linked _ =>
          have closed : ClosedWalk document.ContainedIn
              (member.id :: between ++ [member.id]) := ⟨linked, member.id, between, rfl⟩
          exact absurd (closed.transGen (by simp) (by simp)) (member.unlooped member.id .refl)

/-- The location of an item without cyclic ancestors is that of the plain recursion,
whatever the resolver was asked before. -/
theorem location_eq_plainLocation {source : Index.Source}
    (loaded : Index.load source = .ok document)
    (keyed : ∀ entry ∈ document.paths, entry.1.HasKey) (separator : String)
    (questions : List Question) {id : ItemId} (inside : id ∈ document.ids)
    (unlooped : document.Unlooped id) :
    ∃ path, plainLocation document separator ⟨id, unlooped⟩ = some path ∧
      ((location document separator id).run (after document separator questions)).1 =
        .ok path := by
  have coherent := Index.coherent_of_load loaded
  obtain ⟨path, next, asked⟩ : ∃ path next, (location document separator id).run
      (after document separator questions) = (.ok path, next) :=
    exists_location_eq_ok coherent keyed (after_advances questions) inside
  have steps := @location_advances document separator (after document separator questions) id
  rw [asked] at steps
  obtain ⟨item, placement, found, placed, rfl⟩ := of_location_eq_ok asked
  have plain := agreesWithPlain coherent keyed ((after_advances questions).trans steps)
    ⟨id, unlooped⟩ placement placed
  refine ⟨declaredPath item placement, ?_, by rw [asked]⟩
  rw [plainLocation, found, plain]
  rfl

/-- In the tangled index an item below the self-exposing re-export has its plain
location, also after questions about the cycle. -/
theorem tangled_location_plain : ∃ document,
    Index.load (.text Index.tangledText) = .ok document ∧
    (∀ entry ∈ document.paths, entry.1.HasKey) ∧ "4" ∈ document.ids ∧
    ∃ unlooped : document.Unlooped "4",
      ∃ path, plainLocation document "::" ⟨"4", unlooped⟩ = some path ∧
        ((location document "::" "4").run
          (after document "::" [.location "1", .resolve "3"])).1 = .ok path := by
  obtain ⟨document, loaded, keyed, ids, items⟩ := Index.load_tangledText
  have inside : "4" ∈ document.ids := by
    rw [ids]
    decide
  have listed : ∀ {id container}, document.ContainedIn id container →
      container ∈ document.ids ∧ ∃ containers, container ∈ containers ∧ (id, containers) ∈
        [("0", []), ("1", ["2"]), ("2", ["1"]), ("3", ["9"]), ("4", ["3"])] := by
    rintro id container ⟨item, found, member, isLocal⟩
    obtain ⟨itemMember, rfl⟩ := Document.mem_of_item?_eq_some found
    refine ⟨Document.isLocal_iff_mem_ids.mp isLocal, item.parents, member, ?_⟩
    rw [← items]
    exact List.mem_map_of_mem itemMember
  have top : document.Unlooped "3" := by
    apply Document.unlooped_iff.mpr
    intro container contained
    obtain ⟨isLocal, containers, member, entry⟩ := listed contained
    rw [ids] at isLocal
    simp_all
  have unlooped : document.Unlooped "4" := by
    apply Document.unlooped_iff.mpr
    intro container contained
    obtain ⟨_, containers, member, entry⟩ := listed contained
    simp_all
  exact ⟨document, loaded, keyed, inside, unlooped,
    location_eq_plainLocation loaded keyed "::" _ inside unlooped⟩

end Resolver

end ApiCensus
