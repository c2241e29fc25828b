import ApiCensus.Proofs.CycleWarnings
import ApiCensus.Proofs.ReexportChains

/-!
# Answers are final

What a resolver has answered once it answers again, whatever it is asked in between
and whether or not those questions succeed.  Placements and remembered re-exports are
never replaced, and the chains of re-exports belong to the document alone.  Warnings are
only added, and a question about an unknown identifier changes nothing.  The tables of
bases, containers and modules always have the same keys, which are items of the index.
-/

namespace ApiCensus.Resolver

variable {document : Document} {separator : String} {resolver : Resolver}

/-! ### The tables -/

/-- Only items of the index are placed. -/
theorem mem_ids_of_placed (reached : Advances document separator {} resolver) {id : ItemId}
    {placement : Placement} (placed : resolver.placement? id = some placement) :
    id ∈ document.ids := by
  induction reached generalizing placement with
  | refl => cases placed
  | @tail resolver next _ step induction =>
      cases step.origin placed with
      | kept before => exact induction before
      | settled _ found _ _ =>
          exact Document.isLocal_iff_mem_ids.mp (Document.isLocal_of_item?_eq_some found)
      | anchored linked _ =>
          obtain ⟨_, _, item, found, _⟩ := ClosedWalk.exists_link_of_mem linked List.mem_cons_self
          exact Document.isLocal_iff_mem_ids.mp (Document.isLocal_of_item?_eq_some found)

/-! ### Warnings -/

theorem warnings_prefix_report (resolver : Resolver) (cycle : Cycle) :
    resolver.warnings <+: (resolver.report cycle).warnings := by
  cases repeated : resolver.reports.any (·.cycle.sameMembers cycle) with
  | true =>
      rw [warnings_report_of_repeated repeated]
  | false =>
      rw [warnings_report_of_new repeated]
      exact List.prefix_append _ _

theorem Advances.warnings_extend {next : Resolver}
    (steps : Advances document separator resolver next) :
    resolver.warnings <+: next.warnings := by
  induction steps with
  | refl => exact List.prefix_refl _
  | @tail middle next _ step induction =>
      refine induction.trans ?_
      cases step with
      | settle => exact List.prefix_refl _
      | anchor => exact warnings_prefix_report middle _
      | remember => simp [warnings]
      | close => exact warnings_prefix_report middle _

/-! ### Unknown identifiers -/

theorem run_location_of_unknown (reached : Advances document separator {} resolver) {id : ItemId}
    (unknown : id ∉ document.ids) :
    (location document separator id).run resolver = (.error (.shape .missingKey), resolver) := by
  have absent : document.item? id = none := by
    rw [← Option.not_isSome_iff_eq_none]
    intro found
    exact unknown (Document.isLocal_iff_mem_ids.mp found)
  have unplaced : ¬ resolver.isPlaced id = true := by
    intro placed
    obtain ⟨placement, placementFound⟩ := reached.isPlaced_iff.mp placed
    exact unknown (mem_ids_of_placed reached placementFound)
  rw [run_location, climb_of_absent unplaced absent]

theorem run_ask_of_unknown (reached : Advances document separator {} resolver)
    {question : Question} {id : ItemId} (asked : question.id? = some id)
    (unknown : id ∉ document.ids) :
    (ask document separator question).run resolver = (.error (.shape .missingKey), resolver) := by
  have located : (location document separator id).run resolver =
      (.error (.shape .missingKey), resolver) := run_location_of_unknown reached unknown
  cases question with
  | location other =>
      cases asked
      rw [ask, Query.run_map, located]
      rfl
  | resolve other =>
      cases asked
      rw [ask, Query.run_map, run_resolve, located]
      rfl
  | all => cases asked

/-! ### Resolving all items again -/

theorem Resolves.canonical {last : Resolver} {ids : List ItemId}
    {paths : List (ItemId × ResolvedPath)}
    (resolves : Resolves document separator resolver ids paths last)
    (reached : Advances document separator {} resolver) :
    ∀ pair ∈ paths, Canonical document last pair.1 pair.2 := by
  induction resolves with
  | nil => simp
  | @cons resolver middle last id ids path paths resolved rest induction =>
      have steps := resolve_advances reached id
      rw [resolved] at steps
      have later := rest.advances (reached.trans steps)
      rw [List.forall_mem_cons]
      constructor
      · exact (canonical_of_resolve_eq_ok reached resolved).advances later
      · exact induction (reached.trans steps)

theorem resolveList_of_canonical (reached : Advances document separator {} resolver)
    {paths : List (ItemId × ResolvedPath)}
    (canonical : ∀ pair ∈ paths, Canonical document resolver pair.1 pair.2) :
    ((resolveList document separator (paths.map (·.1))).run resolver).1 = .ok paths := by
  induction paths generalizing resolver with
  | nil => rfl
  | cons pair paths induction =>
      obtain ⟨first, others⟩ := List.forall_mem_cons.mp canonical
      have steps := resolve_advances reached pair.1
      have resolved := resolve_of_canonical reached first
      rw [List.map_cons, run_resolveList_cons]
      generalize (resolve document separator pair.1).run resolver = result at steps resolved
      obtain ⟨outcome, middle⟩ := result
      dsimp only at steps resolved
      subst resolved
      have rest := induction (reached.trans steps) fun other member =>
        (others other member).advances steps
      dsimp only
      generalize (resolveList document separator (paths.map (·.1))).run middle = result at rest
      obtain ⟨outcome, last⟩ := result
      dsimp only at rest
      subst rest
      rfl

theorem of_resolveAll_eq_ok {last : Resolver} {paths : List (ItemId × ResolvedPath)}
    (success : (resolveAll document separator).run resolver = (.ok paths, last)) :
    ∃ ids, document.sortedIds = .ok ids ∧ Resolves document separator resolver ids paths last := by
  rw [run_resolveAll] at success
  cases sorted : document.sortedIds with
  | error cause =>
      rw [sorted] at success
      cases success
  | ok ids =>
      rw [sorted] at success
      exact ⟨ids, rfl, resolves_of_run_eq_ok success⟩

/-! ### The same answer -/

theorem location_again {id : ItemId} {path : ResolvedPath} {next later : Resolver}
    (located : (location document separator id).run resolver = (.ok path, next))
    (steps : Advances document separator next later) :
    ((location document separator id).run later).1 = .ok path := by
  obtain ⟨item, placement, found, placed, rfl⟩ := of_location_eq_ok located
  rw [run_location_of_placed found (steps.placement? placed)]

theorem resolve_again (reached : Advances document separator {} resolver) {id : ItemId}
    {path : ResolvedPath} {next later : Resolver}
    (resolved : (resolve document separator id).run resolver = (.ok path, next))
    (steps : Advances document separator next later) :
    ((resolve document separator id).run later).1 = .ok path := by
  have asked := resolve_advances reached id
  rw [resolved] at asked
  exact resolve_of_canonical ((reached.trans asked).trans steps)
    ((canonical_of_resolve_eq_ok reached resolved).advances steps)

theorem resolveAll_again (reached : Advances document separator {} resolver)
    {paths : List (ItemId × ResolvedPath)} {next later : Resolver}
    (resolved : (resolveAll document separator).run resolver = (.ok paths, next))
    (steps : Advances document separator next later) :
    ((resolveAll document separator).run later).1 = .ok paths := by
  obtain ⟨ids, sorted, resolves⟩ := of_resolveAll_eq_ok resolved
  have asked := resolves.advances reached
  have canonical := resolves.canonical reached
  have again := resolveList_of_canonical ((reached.trans asked).trans steps)
    fun pair member => (canonical pair member).advances steps
  rw [resolves.paths_ids] at again
  rw [run_resolveAll, sorted]
  exact again

/-- An answer to a question is made of that of the query behind it. -/
theorem of_run_map_eq_ok {α β : Type} {transform : α → β} {query : Query α} {value : β}
    {next : Resolver} (success : (transform <$> query).run resolver = (.ok value, next)) :
    ∃ found, query.run resolver = (.ok found, next) ∧ transform found = value := by
  rw [Query.run_map] at success
  generalize query.run resolver = result at success
  obtain ⟨cause | found, after⟩ := result
  · cases success
  · cases success
    exact ⟨found, rfl, rfl⟩

/-- A question that was answered is answered alike after any steps. -/
theorem ask_again (reached : Advances document separator {} resolver) {question : Question}
    {answer : Answer} {next later : Resolver}
    (answered : (ask document separator question).run resolver = (.ok answer, next))
    (steps : Advances document separator next later) :
    ((ask document separator question).run later).1 = .ok answer := by
  cases question with
  | location id =>
      obtain ⟨path, located, rfl⟩ := of_run_map_eq_ok answered
      rw [ask, Query.run_map, location_again located steps]
      rfl
  | resolve id =>
      obtain ⟨path, resolved, rfl⟩ := of_run_map_eq_ok answered
      rw [ask, Query.run_map, resolve_again reached resolved steps]
      rfl
  | all =>
      obtain ⟨paths, resolved, rfl⟩ := of_run_map_eq_ok answered
      rw [ask, Query.run_map, resolveAll_again reached resolved steps]
      rfl

/-! ### Histories of questions -/

theorem transcript_append (resolver : Resolver) (questions later : List Question) :
    (transcript document separator resolver (questions ++ later)).2 =
      (transcript document separator
        (transcript document separator resolver questions).2 later).2 := by
  induction questions generalizing resolver with
  | nil => rfl
  | cons question questions induction => exact induction _

theorem after_append (questions later : List Question) :
    after document separator (questions ++ later) =
      (transcript document separator (after document separator questions) later).2 :=
  transcript_append {} questions later

theorem after_concat (questions : List Question) (question : Question) :
    after document separator (questions ++ [question]) =
      ((ask document separator question).run (after document separator questions)).2 := by
  rw [after_append]
  rfl

/-- What holds of a resolver at any point of a history of questions. -/
structure Final (document : Document) (separator : String) (questions : List Question) :
    Prop where
  /-- A question that is answered now is answered alike at any later time. -/
  again : ∀ question answer,
    ((ask document separator question).run (after document separator questions)).1 = .ok answer →
    ∀ later, ((ask document separator question).run
      (after document separator (questions ++ question :: later))).1 = .ok answer
  /-- The same holds of each item that is resolved together with all others. -/
  each : ∀ paths,
    ((ask document separator .all).run (after document separator questions)).1 =
      .ok (.paths paths) →
    ∀ pair ∈ paths, ∀ later, ((ask document separator (.resolve pair.1)).run
      (after document separator (questions ++ .all :: later))).1 = .ok (.path pair.2)
  /-- Warnings are only added. -/
  warned : ∀ question, (after document separator questions).warnings <+:
    (after document separator (questions ++ [question])).warnings
  /-- A question about an identifier that is not in the index fails and changes nothing. -/
  unknown : ∀ question id, question.id? = some id → id ∉ document.ids →
    (ask document separator question).run (after document separator questions) =
      (.error (.shape .missingKey), after document separator questions)
  /-- The tables have the same keys, and these are items of the index. -/
  tables : ∀ id,
    ((after document separator questions).base? id).isSome =
      ((after document separator questions).parent? id).isSome ∧
    ((after document separator questions).parent? id).isSome =
      ((after document separator questions).module? id).isSome ∧
    (((after document separator questions).base? id).isSome = true → id ∈ document.ids)

/-- Answers are final, whatever a resolver was asked before and is asked afterwards. -/
theorem answers_final (document : Document) (separator : String) (questions : List Question) :
    Final document separator questions := by
  have reached : Advances document separator {} (after document separator questions) :=
    after_advances questions
  have split : ∀ question later, after document separator (questions ++ question :: later) =
      (transcript document separator ((ask document separator question).run
        (after document separator questions)).2 later).2 := by
    intro question later
    rw [after_append]
    rfl
  constructor
  · intro question answer answered later
    have asked := ask_advances reached question
    rw [split]
    exact ask_again reached (Prod.ext answered rfl)
      (transcript_advances (reached.trans asked) later)
  · intro paths answered pair member later
    have asked := ask_advances reached .all
    have more := transcript_advances (reached.trans asked) later
    obtain ⟨found, resolved, same⟩ := of_run_map_eq_ok (Prod.ext answered rfl)
    cases same
    obtain ⟨ids, _, resolves⟩ := of_resolveAll_eq_ok resolved
    have canonical := resolves.canonical reached pair member
    rw [split, ask, Query.run_map,
      resolve_of_canonical ((reached.trans asked).trans more) (canonical.advances more)]
    rfl
  · intro question
    rw [after_concat]
    exact (ask_advances reached question).warnings_extend
  · intro question id asked unknown
    exact run_ask_of_unknown reached asked unknown
  · intro id
    have keys := sameKeys_of_advances reached
    refine ⟨(keys.parents id).symm, (keys.parents id).trans (keys.modules id).symm, ?_⟩
    intro placed
    obtain ⟨placement, placementFound⟩ := keys.isPlaced_iff.mp placed
    exact mem_ids_of_placed reached placementFound

/-- In the tangled index the path of the self-exposing re-export stays as it was first
answered, also after the containers that enclose each other have been asked for. -/
theorem tangled_answer_final : ∃ document,
    Index.load (.text Index.tangledText) = .ok document ∧
    ∃ answer, ((ask document "::" (.resolve "3")).run
        (after document "::" [.location "1"])).1 = .ok answer ∧
      ((ask document "::" (.resolve "3")).run (after document "::"
        ([.location "1"] ++ .resolve "3" :: [.location "7", .resolve "2", .all]))).1 =
          .ok answer := by
  obtain ⟨document, loaded, keyed, ids, _⟩ := Index.load_tangledText
  have inside : "3" ∈ document.ids := by
    rw [ids]
    decide
  obtain ⟨path, next, resolved⟩ : ∃ path next, (resolve document "::" "3").run
      (after document "::" [.location "1"]) = (.ok path, next) :=
    exists_resolve_eq_ok (Index.coherent_of_load loaded) keyed (after_advances _) inside
  have answered : ((ask document "::" (.resolve "3")).run
      (after document "::" [.location "1"])).1 = .ok (.path path) := by
    rw [ask, Query.run_map, resolved]
    rfl
  exact ⟨document, loaded, .path path, answered,
    (answers_final document "::" [.location "1"]).again _ _ answered _⟩

end ApiCensus.Resolver
