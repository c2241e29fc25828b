import ApiCensus.Proofs.CanonicalForest
import ApiCensus.Proofs.PlainLocation
import ApiCensus.Proofs.SettledItems

/-!
# Admissible containers

An item that several containers list may belong to any of them, unless a type lists it as an impl
block: then it belongs to such a type.  `Document.Admits` says so without regard to a resolver.

A placed item is where it is for one of three reasons.  It has no container; or it lies below an
admissible container, and no other admissible container has a lesser stem; or it lies on a cycle
of containers.  What is known about paths follows from these reasons.
-/

namespace ApiCensus

open Relation

namespace Document

/-- The container is a type that lists the item as an impl block. -/
def Owns (document : Document) (container id : ItemId) : Prop :=
  ∃ owner, document.item? container = some owner ∧ owner.kind ∈ [.struct, .enum, .union] ∧
    id ∈ owner.impls

/-- The item may belong to the container: to a type that lists it as an impl block if one of its
containers is such a type, and to any of its containers otherwise. -/
def Admits (document : Document) (id container : ItemId) : Prop :=
  ∃ item, document.item? id = some item ∧ container ∈ item.parents ∧
    ((∃ owner ∈ item.parents, document.Owns owner id) → document.Owns container id)

theorem Admits.containedIn {document : Document} {id container : ItemId}
    (admits : document.Admits id container) (isLocal : document.isLocal container = true) :
    document.ContainedIn id container := by
  obtain ⟨item, found, parent, _⟩ := admits
  exact ⟨item, found, parent, isLocal⟩

theorem exists_admits {document : Document} {id : ItemId} {item : Item}
    (found : document.item? id = some item) (contained : item.parents ≠ []) :
    ∃ container, document.Admits id container := by
  by_cases owned : ∃ owner ∈ item.parents, document.Owns owner id
  · obtain ⟨owner, parent, owns⟩ := owned
    exact ⟨owner, item, found, parent, fun _ => owns⟩
  · obtain ⟨container, parent⟩ := List.exists_mem_of_ne_nil _ contained
    exact ⟨container, item, found, parent, fun other => absurd other owned⟩

end Document

namespace Resolver

variable {document : Document} {separator : String} {resolver : Resolver} {id container : ItemId}
  {item : Item} {placement : Placement}

/-! ### The least candidate -/

theorem implementsOn_iff : implementsOn document container id = true ↔
    document.Owns container id := by
  unfold implementsOn Document.Owns
  cases document.item? container with
  | none => simp
  | some owner => cases kind : owner.kind <;> simp [ItemKind.isType, kind]

theorem mem_admissible_iff {found : List Candidate} {candidate : Candidate} :
    candidate ∈ admissible document id found ↔ candidate ∈ found ∧
      ((∃ other ∈ found, document.Owns other.id id) → document.Owns candidate.id id) := by
  unfold admissible
  dsimp only
  by_cases owned : ∃ other ∈ found, document.Owns other.id id
  · have nonempty : (found.filter fun candidate =>
        implementsOn document candidate.id id).isEmpty = false := by
      obtain ⟨other, member, owns⟩ := owned
      rw [List.isEmpty_eq_false_iff_exists_mem]
      exact ⟨other, List.mem_filter.mpr ⟨member, implementsOn_iff.mpr owns⟩⟩
    simp [nonempty, owned, implementsOn_iff]
  · have empty : (found.filter fun candidate =>
        implementsOn document candidate.id id).isEmpty = true := by
      rw [List.isEmpty_iff, List.filter_eq_nil_iff]
      intro other member implements
      exact owned ⟨other, member, implementsOn_iff.mp implements⟩
    simp [empty, owned]

theorem exists_leastFrom (best : Rank × Candidate) (rest : List (Rank × Candidate)) :
    ∃ chosen ∈ best :: rest, leastFrom best rest = chosen.2 ∧
      ∀ pair ∈ best :: rest, chosen.1.standing ≤ pair.1.standing := by
  induction rest generalizing best with
  | nil => exact ⟨best, by simp, rfl, by simp⟩
  | cons next rest induction =>
      rw [leastFrom]
      by_cases lower : next.1.lt best.1 = true
      · obtain ⟨chosen, member, same, least⟩ := induction next
        rw [if_pos lower]
        refine ⟨chosen, List.mem_cons_of_mem _ member, same, List.forall_mem_cons.mpr ?_⟩
        exact ⟨(least next List.mem_cons_self).trans (Rank.lt_iff.mp lower).le, least⟩
      · obtain ⟨chosen, member, same, least⟩ := induction best
        obtain ⟨leastBest, leastRest⟩ := List.forall_mem_cons.mp least
        have above : best.1.standing ≤ next.1.standing :=
          not_lt.mp (mt Rank.lt_iff.mpr lower)
        rw [if_neg lower]
        refine ⟨chosen, ?_, same, List.forall_mem_cons.mpr ⟨leastBest, ?_⟩⟩
        · rcases List.mem_cons.mp member with rfl | later
          · exact List.mem_cons_self
          · exact List.mem_cons_of_mem _ (List.mem_cons_of_mem _ later)
        · exact List.forall_mem_cons.mpr ⟨leastBest.trans above, leastRest⟩

/-- What remains of a comparison if identifiers are left out. -/
theorem of_standing_le {left right : Candidate} {leftRank rightRank : Rank}
    (leftOk : left.rank separator = .ok leftRank) (rightOk : right.rank separator = .ok rightRank)
    (lower : leftRank.standing ≤ rightRank.standing) :
    left.stem.length ≤ right.stem.length ∧ (right.stem.length = left.stem.length →
      separator.intercalate left.stem ≤ separator.intercalate right.stem) := by
  obtain ⟨leftKey, _, rfl⟩ := rank_eq_ok_iff.mp leftOk
  obtain ⟨rightKey, _, rfl⟩ := rank_eq_ok_iff.mp rightOk
  change toLex (left.stem.length, toLex (separator.intercalate left.stem, leftKey.triple)) ≤
    toLex (right.stem.length, toLex (separator.intercalate right.stem, rightKey.triple)) at lower
  rw [Prod.Lex.toLex_le_toLex] at lower
  rcases lower with shorter | ⟨sameLength, lower⟩
  · exact ⟨shorter.le, fun sameLength => absurd sameLength.symm shorter.ne⟩
  · refine ⟨sameLength.le, fun _ => ?_⟩
    rw [Prod.Lex.toLex_le_toLex] at lower
    rcases lower with below | ⟨same, _⟩
    · exact below.le
    · exact same.le

/-! ### Reasons for a place -/

/-- The item has been put below a container, which is admissible and has the least stem of all
that are. -/
structure LiesBelow (document : Document) (separator : String) (resolver : Resolver)
    (id : ItemId) (placement : Placement) (container : ItemId) : Prop where
  parent : placement.parent = some container
  admits : document.Admits id container
  stemOk : stem document resolver container = .ok placement.base
  module : placement.module = moduleBelow document resolver container
  least : ∀ other, document.Admits id other → ∃ segments,
    stem document resolver other = .ok segments ∧ placement.base.length ≤ segments.length ∧
      (segments.length = placement.base.length →
        separator.intercalate placement.base ≤ separator.intercalate segments)

/-- Why a placed item is where it is. -/
inductive Reason (document : Document) (separator : String) (resolver : Resolver) (id : ItemId) :
    Placement → Prop
  | uncontained {item : Item} : document.item? id = some item → item.parents = [] →
      Reason document separator resolver id (orphan document id)
  | below {placement : Placement} {container : ItemId} :
      LiesBelow document separator resolver id placement container →
      Reason document separator resolver id placement
  | circular : TransGen document.ContainedIn id id →
      Reason document separator resolver id ⟨[document.crateName], none, none⟩

theorem LiesBelow.inside (lies : LiesBelow document separator resolver id placement container)
    (keys : resolver.SameKeys) (isLocal : document.isLocal container = true) :
    ∃ owner place, document.item? container = some owner ∧
      resolver.placement? container = some place ∧
      placement.base = place.base ++ owner.properName?.toList := by
  rcases of_stem_eq_ok keys lies.stemOk with inside | ⟨absent, _⟩
  · exact inside
  · simp [Document.isLocal, absent] at isLocal

theorem Reason.liesBelow (reason : Reason document separator resolver id placement)
    (parent : placement.parent = some container) :
    LiesBelow document separator resolver id placement container := by
  cases reason with
  | uncontained => cases parent
  | below lies =>
      cases lies.parent.symm.trans parent
      exact lies
  | circular => cases parent

section

variable {choices : List Candidate}

theorem exists_candidate (choicesOk : candidates document resolver item = .ok choices)
    (parent : container ∈ item.parents) (known : document.isKnown container = true) :
    ∃ candidate ∈ choices, candidate.id = container := by
  obtain ⟨candidate, member, candidateOk⟩ :=
    Outcome.exists_mem_of_mapM choicesOk (List.mem_filter.mpr ⟨parent, known⟩)
  obtain ⟨_, _, same⟩ := Outcome.bind_eq_ok_iff.mp candidateOk
  cases same
  exact ⟨_, member, rfl⟩

theorem exists_owner_iff (choicesOk : candidates document resolver item = .ok choices)
    (known : ∀ container ∈ item.parents, document.isKnown container = true) :
    (∃ other ∈ choices, document.Owns other.id id) ↔
      ∃ owner ∈ item.parents, document.Owns owner id := by
  constructor
  · rintro ⟨other, member, owns⟩
    exact ⟨other.id, (of_mem_candidates choicesOk member).1, owns⟩
  · rintro ⟨owner, parent, owns⟩
    obtain ⟨candidate, member, rfl⟩ := exists_candidate choicesOk parent (known owner parent)
    exact ⟨candidate, member, owns⟩

theorem exists_admissible_of_admits (found : document.item? id = some item)
    (choicesOk : candidates document resolver item = .ok choices)
    (known : ∀ container ∈ item.parents, document.isKnown container = true)
    (admits : document.Admits id container) :
    ∃ candidate ∈ admissible document id choices, candidate.id = container := by
  obtain ⟨_, sameFound, parent, owner⟩ := admits
  cases found.symm.trans sameFound
  obtain ⟨candidate, member, rfl⟩ := exists_candidate choicesOk parent (known _ parent)
  refine ⟨candidate, mem_admissible_iff.mpr ⟨member, ?_⟩, rfl⟩
  intro owned
  exact owner ((exists_owner_iff choicesOk known).mp owned)

theorem admits_of_mem_admissible (found : document.item? id = some item)
    (choicesOk : candidates document resolver item = .ok choices)
    (known : ∀ container ∈ item.parents, document.isKnown container = true)
    {candidate : Candidate} (member : candidate ∈ admissible document id choices) :
    document.Admits id candidate.id ∧
      stem document resolver candidate.id = .ok candidate.stem := by
  obtain ⟨inside, owner⟩ := mem_admissible_iff.mp member
  obtain ⟨parent, _, stemOk⟩ := of_mem_candidates choicesOk inside
  refine ⟨⟨item, found, parent, ?_⟩, stemOk⟩
  intro owned
  exact owner ((exists_owner_iff choicesOk known).mpr owned)

end

theorem Settled.reason (found : document.item? id = some item)
    (known : ∀ container ∈ item.parents, document.isKnown container = true)
    (settled : Settled document separator resolver item placement) :
    Reason document separator resolver id placement := by
  obtain ⟨choices, ranked, choicesOk, related, rfl⟩ := settle_eq_ok_iff.mp settled.settled
  have ranks := rank_of_ranked related
  have same := map_snd_of_ranked related
  rw [(Document.mem_of_item?_eq_some found).2] at same ⊢
  have admitted : ∀ pair ∈ ranked, document.Admits id pair.2.id ∧
      stem document resolver pair.2.id = .ok pair.2.stem := by
    intro pair member
    apply admits_of_mem_admissible found choicesOk known
    rw [← same]
    exact List.mem_map_of_mem member
  have complete : ∀ other, document.Admits id other → ∃ pair ∈ ranked, pair.2.id = other := by
    intro other admits
    obtain ⟨candidate, member, rfl⟩ := exists_admissible_of_admits found choicesOk known admits
    rw [← same] at member
    obtain ⟨pair, inside, rfl⟩ := List.mem_map.mp member
    exact ⟨pair, inside, rfl⟩
  cases ranked with
  | nil =>
      apply Reason.uncontained found
      by_contra contained
      obtain ⟨container, admits⟩ := Document.exists_admits found contained
      obtain ⟨_, impossible, _⟩ := complete container admits
      cases impossible
  | cons first rest =>
      obtain ⟨chosen, member, chosenLeast, least⟩ := exists_leastFrom first rest
      obtain ⟨admits, stemOk⟩ := admitted chosen member
      dsimp only [placementBy]
      rw [chosenLeast]
      refine .below ⟨rfl, admits, stemOk, rfl, ?_⟩
      intro other otherAdmits
      obtain ⟨pair, inside, rfl⟩ := complete other otherAdmits
      exact ⟨pair.2.stem, (admitted pair inside).2,
        of_standing_le (ranks chosen member) (ranks pair inside) (least pair inside)⟩

/-- Every placed item has a reason for its place. -/
theorem reason_of_placed (coherent : document.Coherent)
    (reached : Advances document separator {} resolver) (found : document.item? id = some item)
    (placed : resolver.placement? id = some placement) :
    Reason document separator resolver id placement := by
  rcases settled_or_anchored reached found placed with settled | ⟨rfl, cyclic⟩
  · apply settled.reason found
    exact coherent.containersKnown item (Document.mem_of_item?_eq_some found).1
  · exact .circular cyclic

theorem PlacedBelow.reason (coherent : document.Coherent)
    (reached : Advances document separator {} resolver) {parent : Option ItemId}
    (below : PlacedBelow document resolver id parent)
    (placed : resolver.placement? id = some placement) :
    placement.parent = parent ∧ Reason document separator resolver id placement := by
  obtain ⟨item, _, found, samePlaced, sameParent⟩ := below
  cases placed.symm.trans samePlaced
  exact ⟨sameParent, reason_of_placed coherent reached found placed⟩

end Resolver

/-! ### An item in two modules -/

namespace Index

/-- An index with an item in two modules. The name of one module begins with that of the other. -/
def twinText : String :=
  "\x7b\"format_version\":30,\"root\":0,\"index\":\x7b" ++
    "\"0\":\x7b\"name\":\"c\",\"inner\":\x7b\"module\":\x7b\"items\":[1,2]\x7d\x7d\x7d," ++
    "\"1\":\x7b\"name\":\"a\",\"inner\":\x7b\"module\":\x7b\"items\":[3]\x7d\x7d\x7d," ++
    "\"2\":\x7b\"name\":\"a1\",\"inner\":\x7b\"module\":\x7b\"items\":[3]\x7d\x7d\x7d," ++
    "\"3\":\x7b\"name\":\"x\"\x7d\x7d\x7d"

/-- The record of a module with a name. -/
def twinModule (name : String) (members : List Int) : Value :=
  .ofFields [("name", .text name), ("inner", .ofFields [("module", membersOf members)])]

/-- The record that the text of the index holds. -/
def twinRecord : Value :=
  .ofFields [("format_version", .int 30), ("root", .int 0),
    ("index", .ofFields [("0", twinModule "c" [1, 2]), ("1", twinModule "a" [3]),
      ("2", twinModule "a1" [3]), ("3", .ofFields [("name", .text "x")])])]

/-- The document of the index. -/
def twins : Document where
  formatVersion := 30
  root := "0"
  crateName := "c"
  items := [plainItem "0" .module "module" (some "c") [] ["1", "2"] (membersOf [1, 2]),
    plainItem "1" .module "module" (some "a") ["0"] ["3"] (membersOf [3]),
    plainItem "2" .module "module" (some "a1") ["0"] ["3"] (membersOf [3]),
    plainItem "3" .other "unknown" (some "x") ["1", "2"] [] (.record [])]
  paths := []
  externalCrates := []

theorem load_twins : load (.text twinText) = .ok twins := by
  have read : Json.read twinText = .ok twinRecord := by decide +kernel
  have top : ItemId.sort ["0"] = .ok ["0"] := ItemId.sort_singleton ⟨.number 0, rfl⟩
  have both : ItemId.sort ["1", "2"] = .ok ["1", "2"] :=
    @ItemId.sort_eq_self _ [(.number 1, "1"), (.number 2, "2")] rfl (by decide)
  have all : ItemId.sort ["0", "1", "2", "3"] = .ok ["0", "1", "2", "3"] :=
    @ItemId.sort_eq_self _ [(.number 0, "0"), (.number 1, "1"), (.number 2, "2"),
      (.number 3, "3")] rfl (by decide)
  have sorted : ∀ {ids : List ItemId}, ItemId.sort ids = .ok ids →
      (liftM (ItemId.sort ids) : Except Failure (List ItemId)) = .ok ids :=
    Outcome.liftM_integer_eq_ok_iff.mpr
  refine load_of_stages read rfl
    ⟨rfl, rfl, rfl, rfl, rfl, rfl, ?_, rfl, Outcome.mapM_eq_ok_iff.mpr
      (.cons rfl (.cons (itemOf_of_parents (sorted top) rfl)
        (.cons (itemOf_of_parents (sorted top) rfl)
          (.cons (itemOf_of_parents (sorted both) rfl) .nil)))), rfl⟩
  exact Outcome.bind_eq_ok_iff.mpr ⟨_, sorted all, rfl⟩

theorem unlooped_twins : twins.Unlooped "3" := by
  have unlooped : ∀ {id item}, twins.item? id = some item →
      (∀ container ∈ item.parents, twins.Unlooped container) → twins.Unlooped id := by
    intro id item found above
    apply Document.unlooped_iff.mpr
    rintro container ⟨other, otherFound, parent, _⟩
    cases found.symm.trans otherFound
    exact above container parent
  have top : ∀ container ∈ ["0"], twins.Unlooped container :=
    List.forall_mem_singleton.mpr (unlooped rfl (List.forall_mem_nil _))
  have modules : ∀ container ∈ ["1", "2"], twins.Unlooped container :=
    List.forall_mem_cons.mpr ⟨unlooped rfl top, List.forall_mem_singleton.mpr (unlooped rfl top)⟩
  exact unlooped rfl modules

end Index

namespace Resolver

open Index

/-- What a new resolver has found once it has located the item in two modules. -/
def twinPlaced : Resolver where
  bases := [("3", ["c", "a"]), ("2", ["c"]), ("1", ["c"]), ("0", [])]
  parents := [("3", some "1"), ("2", some "0"), ("1", some "0"), ("0", none)]
  modules := [("3", some "1"), ("2", some "0"), ("1", some "0"), ("0", none)]

theorem locate_twins : (location twins "::" "3").run {} =
    (.ok { segments := ["c", "a", "x"], parent := some "1", module := some "1" }, twinPlaced) := by
  have fresh : ∀ {resolver : Resolver} {id : ItemId}, resolver.isPlaced id = false →
      ¬ resolver.isPlaced id = true := by simp
  have climbed : climb twins "::" {} ["3"] = (.ok (), twinPlaced) := by
    rw [climb_of_pending (fresh rfl) rfl rfl, if_neg (by decide),
      climb_of_pending (fresh rfl) rfl rfl, if_neg (by decide),
      climb_of_settled (fresh rfl) rfl rfl rfl, climb_of_settled (fresh rfl) rfl rfl rfl,
      climb_of_pending (fresh rfl) rfl rfl, if_neg (by decide),
      climb_of_settled (fresh rfl) rfl rfl rfl, climb_of_settled (fresh rfl) rfl rfl rfl, climb]
    rfl
  rw [run_location, climbed]
  rfl

end Resolver

end ApiCensus
