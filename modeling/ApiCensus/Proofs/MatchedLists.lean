import ApiCensus.Proofs.LoadedDocument

/-!
# Matched lists

Two lists are matched if every element of each is related to one of the other.  The order
of the elements plays no part in it.  Runs of fallible operations, filters and lookups
by distinct identifiers keep lists matched.
-/

namespace ApiCensus

/-- Every element of each list is related to one of the other. -/
def Matched {α β : Type} (related : α → β → Prop) (left : List α) (right : List β) : Prop :=
  (∀ element ∈ left, ∃ other ∈ right, related element other) ∧
    ∀ other ∈ right, ∃ element ∈ left, related element other

namespace Matched

variable {α β γ δ ε : Type} {related : α → β → Prop} {left : List α} {right : List β}

theorem symm (matched : Matched related left right) :
    Matched (fun other element => related element other) right left :=
  ⟨matched.2, matched.1⟩

theorem mono {weaker : α → β → Prop} (matched : Matched related left right)
    (implies : ∀ element other, related element other → weaker element other) :
    Matched weaker left right := by
  constructor
  · intro element member
    obtain ⟨other, otherMember, holds⟩ := matched.1 element member
    exact ⟨other, otherMember, implies element other holds⟩
  · intro other otherMember
    obtain ⟨element, member, holds⟩ := matched.2 other otherMember
    exact ⟨element, member, implies element other holds⟩

theorem refl {related : α → α → Prop} (holds : ∀ element, related element element)
    (elements : List α) : Matched related elements elements :=
  ⟨fun element member => ⟨element, member, holds element⟩,
    fun element member => ⟨element, member, holds element⟩⟩

theorem of_forall₂ (pairs : List.Forall₂ related left right) : Matched related left right := by
  induction pairs with
  | nil => exact ⟨by simp, by simp⟩
  | @cons first otherFirst rest otherRest holds _ induction =>
      constructor
      · intro element member
        rcases List.mem_cons.mp member with rfl | later
        · exact ⟨otherFirst, List.mem_cons_self, holds⟩
        · obtain ⟨other, otherMember, follows⟩ := induction.1 element later
          exact ⟨other, List.mem_cons_of_mem _ otherMember, follows⟩
      · intro other otherMember
        rcases List.mem_cons.mp otherMember with rfl | later
        · exact ⟨first, List.mem_cons_self, holds⟩
        · obtain ⟨element, member, follows⟩ := induction.2 other later
          exact ⟨element, List.mem_cons_of_mem _ member, follows⟩

theorem map {following : γ → δ → Prop} {read : α → γ} {otherRead : β → δ}
    (matched : Matched related left right)
    (kept : ∀ element other, related element other → following (read element) (otherRead other)) :
    Matched following (left.map read) (right.map otherRead) := by
  constructor
  · intro _ mapped
    obtain ⟨element, member, rfl⟩ := List.mem_map.mp mapped
    obtain ⟨other, otherMember, holds⟩ := matched.1 element member
    exact ⟨_, List.mem_map_of_mem otherMember, kept element other holds⟩
  · intro _ mapped
    obtain ⟨other, otherMember, rfl⟩ := List.mem_map.mp mapped
    obtain ⟨element, member, holds⟩ := matched.2 other otherMember
    exact ⟨_, List.mem_map_of_mem member, kept element other holds⟩

theorem filter {keep : α → Bool} {otherKeep : β → Bool} (matched : Matched related left right)
    (kept : ∀ element other, related element other → keep element = otherKeep other) :
    Matched related (left.filter keep) (right.filter otherKeep) := by
  constructor
  · intro element member
    obtain ⟨inside, passes⟩ := List.mem_filter.mp member
    obtain ⟨other, otherInside, holds⟩ := matched.1 element inside
    exact ⟨other, List.mem_filter.mpr ⟨otherInside, kept element other holds ▸ passes⟩, holds⟩
  · intro other member
    obtain ⟨inside, passes⟩ := List.mem_filter.mp member
    obtain ⟨element, elementInside, holds⟩ := matched.2 other inside
    exact ⟨element, List.mem_filter.mpr ⟨elementInside, kept element other holds ▸ passes⟩, holds⟩

theorem mem_map_iff {read : α → γ} {otherRead : β → γ} (matched : Matched related left right)
    (kept : ∀ element other, related element other → read element = otherRead other) {value : γ} :
    value ∈ left.map read ↔ value ∈ right.map otherRead := by
  have same : Matched Eq (left.map read) (right.map otherRead) := matched.map kept
  constructor
  · intro member
    obtain ⟨_, otherMember, rfl⟩ := same.1 value member
    exact otherMember
  · intro otherMember
    obtain ⟨_, member, rfl⟩ := same.2 value otherMember
    exact member

/-- A run that succeeds on a list succeeds on one that is matched with it. -/
theorem exists_mapM {following : γ → δ → Prop} {operation : α → Except ε γ}
    {otherOperation : β → Except ε δ} {results : List γ} (matched : Matched related left right)
    (each : ∀ element ∈ left, ∀ other ∈ right, related element other →
      Outcome.Agree following (operation element) (otherOperation other))
    (success : left.mapM operation = .ok results) :
    ∃ otherResults, right.mapM otherOperation = .ok otherResults ∧
      Matched following results otherResults := by
  have succeeds : ∀ other ∈ right, ∃ result, otherOperation other = .ok result := by
    intro other otherMember
    obtain ⟨element, member, holds⟩ := matched.2 other otherMember
    obtain ⟨result, _, resultOk⟩ := Outcome.exists_mem_of_mapM success member
    obtain ⟨otherResult, otherOk, _⟩ :=
      (each element member other otherMember holds).exists_ok resultOk
    exact ⟨otherResult, otherOk⟩
  obtain ⟨otherResults, otherSuccess⟩ := Outcome.exists_mapM_eq_ok succeeds
  refine ⟨otherResults, otherSuccess, ?_, ?_⟩
  · intro result resultMember
    obtain ⟨element, member, resultOk⟩ := Outcome.exists_of_mem_mapM success resultMember
    obtain ⟨other, otherMember, holds⟩ := matched.1 element member
    obtain ⟨otherResult, otherResultMember, otherOk⟩ :=
      Outcome.exists_mem_of_mapM otherSuccess otherMember
    obtain ⟨found, foundOk, follows⟩ :=
      (each element member other otherMember holds).exists_ok resultOk
    cases otherOk.symm.trans foundOk
    exact ⟨otherResult, otherResultMember, follows⟩
  · intro otherResult otherResultMember
    obtain ⟨other, otherMember, otherOk⟩ :=
      Outcome.exists_of_mem_mapM otherSuccess otherResultMember
    obtain ⟨element, member, holds⟩ := matched.2 other otherMember
    obtain ⟨result, resultMember, resultOk⟩ := Outcome.exists_mem_of_mapM success member
    obtain ⟨found, foundOk, follows⟩ :=
      (each element member other otherMember holds).exists_ok resultOk
    cases otherOk.symm.trans foundOk
    exact ⟨result, resultMember, follows⟩

/-- The same is found under an identifier, if no identifier occurs twice. -/
theorem find? {idOf : α → ItemId} {otherIdOf : β → ItemId} (matched : Matched related left right)
    (kept : ∀ element other, related element other → idOf element = otherIdOf other)
    (distinct : (right.map otherIdOf).Nodup) (id : ItemId) :
    Option.Rel related (left.find? (idOf · == id)) (right.find? (otherIdOf · == id)) := by
  cases found : left.find? (idOf · == id) with
  | some element =>
      obtain ⟨other, otherMember, holds⟩ := matched.1 element (List.mem_of_find?_eq_some found)
      have same : otherIdOf other = id := by
        rw [← kept element other holds]
        simpa using List.find?_some found
      have otherFound := find?_eq_some_of_distinct distinct otherMember
      rw [same] at otherFound
      rw [otherFound]
      exact .some holds
  | none =>
      have absent : right.find? (otherIdOf · == id) = none := by
        apply List.find?_eq_none.mpr
        intro other otherMember sameId
        obtain ⟨element, member, holds⟩ := matched.2 other otherMember
        apply List.find?_eq_none.mp found element member
        rw [kept element other holds]
        exact sameId
      rw [absent]
      exact .none

theorem lookup {left right : List (ItemId × γ)} (matched : Matched Eq left right)
    (distinct : (right.map (·.1)).Nodup) (id : ItemId) : left.lookup id = right.lookup id := by
  have lookup_eq : ∀ entries : List (ItemId × γ),
      entries.lookup id = (entries.find? (·.1 == id)).map (·.2) := by
    intro entries
    induction entries with
    | nil => rfl
    | cons entry entries induction =>
        rw [List.lookup_cons, List.find?_cons, BEq.comm, induction]
        split <;> simp_all
  have found := matched.find? (fun _ _ same => congrArg Prod.fst same) distinct id
  rw [lookup_eq, lookup_eq]
  generalize left.find? (·.1 == id) = here, right.find? (·.1 == id) = there at found
  cases found with
  | some same => rw [same]
  | none => rfl

end Matched

end ApiCensus
