import ApiCensus.Proofs.ResolverRuns

/-!
# Histories of questions

A resolver is asked for the location of an item, for its canonical path, or for
the paths of all items.  It keeps what it has found out, also when a question
fails, and the next question starts from there.  Every history of questions is a
sequence of steps of the resolver.
-/

namespace ApiCensus.Resolver

open Relation

/-- A question to a resolver. -/
inductive Question
  /-- Where is an item declared? -/
  | location (id : ItemId)
  /-- What is the canonical path of an item? -/
  | resolve (id : ItemId)
  /-- What are the canonical paths of all items? -/
  | all
deriving DecidableEq, Repr

/-- The identifier that a question names. -/
def Question.id? : Question → Option ItemId
  | .location id => some id
  | .resolve id => some id
  | .all => none

/-- An answer of a resolver. -/
inductive Answer
  | path (path : ResolvedPath)
  | paths (paths : List (ItemId × ResolvedPath))
deriving DecidableEq, Repr

/-- Put a question to a resolver. -/
def ask (document : Document) (separator : String) : Question → Query Answer
  | .location id => Answer.path <$> location document separator id
  | .resolve id => Answer.path <$> resolve document separator id
  | .all => Answer.paths <$> resolveAll document separator

/-- Put questions one after another to a resolver: their outcomes, and the state
that the last one leaves. -/
def transcript (document : Document) (separator : String) :
    Resolver → List Question → List (Except Failure Answer) × Resolver
  | resolver, [] => ([], resolver)
  | resolver, question :: questions =>
      let (outcome, next) := (ask document separator question).run resolver
      let (outcomes, last) := transcript document separator next questions
      (outcome :: outcomes, last)

/-- The state of a new resolver after a history of questions. -/
def after (document : Document) (separator : String) (questions : List Question) : Resolver :=
  (transcript document separator {} questions).2

variable {document : Document} {separator : String}

theorem Query.run_map {α β : Type} (transform : α → β) (question : Query α)
    (resolver : Resolver) :
    (transform <$> question).run resolver =
      ((question.run resolver).1.map transform, (question.run resolver).2) := by
  change ((question >>= fun value => pure (transform value) : Query β)).run resolver = _
  rw [Query.run_bind]
  rcases question.run resolver with ⟨cause | value, next⟩
  · rfl
  · rfl

/-! ### Resolving all items -/

/-- The items of a list are resolved one after another. -/
inductive Resolves (document : Document) (separator : String) :
    Resolver → List ItemId → List (ItemId × ResolvedPath) → Resolver → Prop
  | nil (resolver : Resolver) : Resolves document separator resolver [] [] resolver
  | cons {resolver middle last : Resolver} {id : ItemId} {ids : List ItemId}
      {path : ResolvedPath} {paths : List (ItemId × ResolvedPath)} :
      (resolve document separator id).run resolver = (.ok path, middle) →
      Resolves document separator middle ids paths last →
      Resolves document separator resolver (id :: ids) ((id, path) :: paths) last

/-- Resolve a list of items one after another. -/
def resolveList (document : Document) (separator : String) (ids : List ItemId) :
    Query (List (ItemId × ResolvedPath)) :=
  ids.mapM fun id => do return (id, ← resolve document separator id)

theorem run_resolveList_cons (resolver : Resolver) (id : ItemId) (ids : List ItemId) :
    (resolveList document separator (id :: ids)).run resolver =
      match (resolve document separator id).run resolver with
      | (.error cause, middle) => (.error cause, middle)
      | (.ok path, middle) =>
          match (resolveList document separator ids).run middle with
          | (.error cause, last) => (.error cause, last)
          | (.ok paths, last) => (.ok ((id, path) :: paths), last) := by
  have unfolded : resolveList document separator (id :: ids) = (do
      let path ← resolve document separator id
      let paths ← resolveList document separator ids
      return (id, path) :: paths) := by
    simp [resolveList]
  rw [unfolded, Query.run_bind]
  rcases (resolve document separator id).run resolver with ⟨cause | path, middle⟩
  · rfl
  · dsimp only
    rw [Query.run_bind]
    rcases (resolveList document separator ids).run middle with ⟨cause | paths, last⟩
    · rfl
    · rfl

/-- An item whose containers are placed is resolved by settling it. -/
theorem run_resolveList_of_ready {resolver last : Resolver} {id : ItemId} {item : Item}
    {placement : Placement} {ids : List ItemId} {paths : List (ItemId × ResolvedPath)}
    (fresh : resolver.isPlaced id = false) (found : document.item? id = some item)
    (ready : pending? document resolver item = none)
    (settled : settle document separator resolver item = .ok placement)
    (plain : isReexport document id = false)
    (rest : (resolveList document separator ids).run (resolver.place id placement) =
      (.ok paths, last)) :
    (resolveList document separator (id :: ids)).run resolver =
      (.ok ((id, declaredPath item placement) :: paths), last) := by
  have climbed : climb document separator resolver [id] =
      (.ok (), resolver.place id placement) := by
    rw [climb_of_settled (by simp [fresh]) found ready settled, climb]
  have resolved : (resolve document separator id).run resolver =
      (.ok (declaredPath item placement), resolver.place id placement) := by
    rw [run_resolve, run_location, climbed]
    dsimp only
    rw [found, placement?_place, if_pos rfl, plain]
    rfl
  rw [run_resolveList_cons, resolved]
  dsimp only
  rw [rest]

theorem resolves_of_run_eq_ok {resolver last : Resolver} {ids : List ItemId}
    {paths : List (ItemId × ResolvedPath)}
    (success : (resolveList document separator ids).run resolver = (.ok paths, last)) :
    Resolves document separator resolver ids paths last := by
  induction ids generalizing resolver paths with
  | nil =>
      cases success
      exact .nil _
  | cons id ids induction =>
      rw [run_resolveList_cons] at success
      split at success
      · cases success
      · rename_i path middle resolved
        split at success
        · cases success
        · rename_i others final rest
          cases success
          exact .cons resolved (induction rest)

theorem Resolves.paths_ids {resolver last : Resolver} {ids : List ItemId}
    {paths : List (ItemId × ResolvedPath)}
    (resolves : Resolves document separator resolver ids paths last) :
    paths.map (·.1) = ids := by
  induction resolves with
  | nil => rfl
  | cons _ _ induction => simp [induction]

theorem Resolves.advances {resolver last : Resolver} {ids : List ItemId}
    {paths : List (ItemId × ResolvedPath)}
    (resolves : Resolves document separator resolver ids paths last)
    (reached : Advances document separator {} resolver) :
    Advances document separator resolver last := by
  induction resolves with
  | nil => exact .refl
  | @cons resolver middle last id ids path paths resolved _ induction =>
      have steps := resolve_advances reached id
      rw [resolved] at steps
      exact steps.trans (induction (reached.trans steps))

theorem isPlaced_of_resolve {resolver later : Resolver} {path : ResolvedPath} {id : ItemId}
    (reached : Advances document separator {} resolver)
    (resolved : (resolve document separator id).run resolver = (.ok path, later)) :
    later.isPlaced id = true := by
  have steps := @location_advances document separator resolver id
  rw [run_resolve] at resolved
  generalize located : (location document separator id).run resolver = result at resolved steps
  obtain ⟨cause | place, next⟩ := result
  · cases resolved
  · obtain ⟨_, placement, _, placed, _⟩ := of_location_eq_ok located
    have followed := follow_advances (reached.trans steps) id
    dsimp only at resolved followed
    refine @isPlaced_of_placement? _ _ placement ?_
    split at resolved
    · generalize (follow document separator id).run next = result at resolved followed
      obtain ⟨cause | ⟨cycle | target⟩, last⟩ := result
      · cases resolved
      · cases resolved
        exact followed.placement? placed
      · cases resolved
        exact followed.placement? placed
    · cases resolved
      exact placed

/-- Every item of the list has its turn, from a state that is reached to one from
which the last state is reached. -/
theorem Resolves.exists_turn {resolver last : Resolver} {ids : List ItemId}
    {paths : List (ItemId × ResolvedPath)}
    (resolves : Resolves document separator resolver ids paths last)
    (reached : Advances document separator {} resolver) {id : ItemId} (member : id ∈ ids) :
    ∃ earlier path later, Advances document separator {} earlier ∧
      (resolve document separator id).run earlier = (.ok path, later) ∧
      Advances document separator later last := by
  induction resolves with
  | nil => cases member
  | @cons resolver middle last first ids path paths resolved rest induction =>
      have steps := resolve_advances reached first
      rw [resolved] at steps
      rcases List.mem_cons.mp member with rfl | later
      · exact ⟨resolver, path, middle, reached, resolved, rest.advances (reached.trans steps)⟩
      · exact induction (reached.trans steps) later

theorem Resolves.isPlaced {last : Resolver} {ids : List ItemId}
    {paths : List (ItemId × ResolvedPath)}
    (resolves : Resolves document separator {} ids paths last) {id : ItemId}
    (member : id ∈ ids) : last.isPlaced id = true := by
  obtain ⟨earlier, path, later, reached, resolved, steps⟩ := resolves.exists_turn .refl member
  exact steps.isPlaced (isPlaced_of_resolve reached resolved)

theorem resolveList_advances {resolver : Resolver}
    (reached : Advances document separator {} resolver) (ids : List ItemId) :
    Advances document separator resolver
      ((resolveList document separator ids).run resolver).2 := by
  induction ids generalizing resolver with
  | nil => exact .refl
  | cons id ids induction =>
      have first := resolve_advances reached id
      rw [run_resolveList_cons]
      generalize (resolve document separator id).run resolver = result at first
      obtain ⟨cause | path, middle⟩ := result
      · exact first
      · have rest := induction (reached.trans first)
        dsimp only at rest ⊢
        generalize (resolveList document separator ids).run middle = result at rest
        obtain ⟨cause | paths, last⟩ := result
        · exact first.trans rest
        · exact first.trans rest

theorem resolveAll_advances {resolver : Resolver}
    (reached : Advances document separator {} resolver) :
    Advances document separator resolver
      ((resolveAll document separator).run resolver).2 := by
  rw [run_resolveAll]
  cases document.sortedIds with
  | error cause => exact .refl
  | ok ids => exact resolveList_advances reached ids

/-! ### Histories -/

theorem ask_advances {resolver : Resolver}
    (reached : Advances document separator {} resolver) (question : Question) :
    Advances document separator resolver
      ((ask document separator question).run resolver).2 := by
  cases question with
  | location id =>
      rw [ask, Query.run_map]
      exact location_advances resolver id
  | resolve id =>
      rw [ask, Query.run_map]
      exact resolve_advances reached id
  | all =>
      rw [ask, Query.run_map]
      exact resolveAll_advances reached

theorem transcript_advances {resolver : Resolver}
    (reached : Advances document separator {} resolver) (questions : List Question) :
    Advances document separator resolver
      (transcript document separator resolver questions).2 := by
  induction questions generalizing resolver with
  | nil => exact .refl
  | cons question questions induction =>
      have first := ask_advances reached question
      exact first.trans (induction (reached.trans first))

/-- The state after any history of questions is reached by steps. -/
theorem after_advances (questions : List Question) :
    Advances document separator {} (after document separator questions) :=
  transcript_advances .refl questions

theorem advances_of_location {questions : List Question} {id : ItemId} {next : Resolver}
    {outcome : Except Failure ResolvedPath}
    (asked : (location document separator id).run (after document separator questions) =
      (outcome, next)) : Advances document separator {} next := by
  have steps := @location_advances document separator (after document separator questions) id
  rw [asked] at steps
  exact (after_advances questions).trans steps

end ApiCensus.Resolver
