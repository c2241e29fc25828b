import ApiCensus.Proofs.FinalAnswers

/-!
# Re-exports by plain following

The path of a re-export can be said without memory: follow the targets, one after
another, to the end of the chain.  At an item of the index the path has the segments of
its location, at an item that is known by its path alone those of the summary, and if
the chain comes back to where it was, those of the location of the re-export itself.
A resolver gives the same path, whatever it remembers from earlier questions.
-/

namespace ApiCensus

open Relation

/-- Where a chain of re-exports comes to an end. -/
inductive ChainEnd
  /-- At an item of the index that is no re-export. -/
  | item (id : ItemId)
  /-- At a re-export without a target. -/
  | untargeted (id : ItemId)
  /-- At an item that is known by its path alone. -/
  | outside (summary : PathSummary)
  /-- At an identifier that the chain has passed before. -/
  | revisited
  /-- At an identifier that is not known. -/
  | unknown
deriving DecidableEq, Repr

set_option linter.unusedVariables false in
/-- Follow the targets of re-exports from an identifier, after those already passed. -/
def chainEnd (document : Document) (passed : List ItemId) (id : ItemId) : ChainEnd :=
  if again : passed.contains id = true then .revisited
  else
    match found : document.item? id with
    | none =>
        match document.summary? id with
        | some summary => .outside summary
        | none => .unknown
    | some item =>
        if item.kind = .reexport then
          match item.reexportTarget with
          | some target => chainEnd document (id :: passed) target
          | none => .untargeted id
        else .item id
termination_by (document.items.filter fun item => !passed.contains item.id).length
decreasing_by exact Document.length_filter_unseen_lt found (by simpa using again)

/-- The path of a re-export by the end of its chain, where `located` tells at which
paths items are declared. -/
def plainReexport (document : Document) (located : ItemId → Option ResolvedPath) (id : ItemId) :
    Option ResolvedPath := do
  let own ← located id
  let exposed (segments : List String) (isExternal : Bool) : ResolvedPath :=
    { segments, isReexport := true, isExternal, parent := own.parent, module := own.module }
  match chainEnd document [] id with
  | .item target => return exposed (← located target).segments false
  | .untargeted target => return exposed (← located target).segments false
  | .outside summary => return exposed summary.segments true
  | .revisited => return exposed own.segments false
  | .unknown => none

/-! ### What the end of a chain says -/

/-- The chain from an identifier has the given end. -/
inductive Document.EndsAt (document : Document) (id : ItemId) : ChainEnd → Prop
  | item {target : ItemId} {item : Item} :
      ReflTransGen document.Exposes id target → document.item? target = some item →
      item.kind ≠ .reexport → document.EndsAt id (.item target)
  | untargeted {target : ItemId} {item : Item} :
      ReflTransGen document.Exposes id target → document.item? target = some item →
      item.kind = .reexport → item.reexportTarget = none → document.EndsAt id (.untargeted target)
  | outside {target : ItemId} {summary : PathSummary} :
      ReflTransGen document.Exposes id target → document.item? target = none →
      document.summary? target = some summary → document.EndsAt id (.outside summary)
  | revisited : document.Circles id → document.EndsAt id .revisited
  | unknown {target : ItemId} :
      ReflTransGen document.Exposes id target → document.item? target = none →
      document.summary? target = none → document.EndsAt id .unknown

variable {document : Document}

theorem Document.EndsAt.head {id target : ItemId} {last : ChainEnd}
    (exposes : document.Exposes id target) (ends : document.EndsAt target last) :
    document.EndsAt id last := by
  cases ends with
  | item reached found other => exact .item (.head exposes reached) found other
  | untargeted reached found kind bare => exact .untargeted (.head exposes reached) found kind bare
  | outside reached absent known => exact .outside (.head exposes reached) absent known
  | revisited circles =>
      obtain ⟨start, reached, cyclic⟩ := circles
      exact .revisited ⟨start, .head exposes reached, cyclic⟩
  | unknown reached absent unknown => exact .unknown (.head exposes reached) absent unknown

/-- Following the targets finds the end of the chain. -/
theorem endsAt_chainEnd {passed : List ItemId} {id : ItemId}
    (linked : ∀ earlier ∈ passed, TransGen document.Exposes earlier id) :
    document.EndsAt id (chainEnd document passed id) := by
  -- Each step keeps `linked`, and so an identifier that was passed before closes a circle.
  fun_induction chainEnd document passed id with
  | case1 passed id again =>
      exact .revisited ⟨id, .refl, linked id (by simpa using again)⟩
  | case2 passed id _ absent summary known => exact .outside .refl absent known
  | case3 passed id _ absent unknown => exact .unknown .refl absent unknown
  | case4 passed id _ item found kind target exposed induction =>
      have exposes : document.Exposes id target := ⟨item, found, kind, exposed⟩
      refine .head exposes (induction ?_)
      rw [List.forall_mem_cons]
      exact ⟨.single exposes, fun earlier member => (linked earlier member).tail exposes⟩
  | case5 passed id _ item found kind bare => exact .untargeted .refl found kind bare
  | case6 passed id _ item found other => exact .item .refl found other

/-- A chain that circles ends where it comes back. -/
theorem chainEnd_of_circles {id : ItemId} (circles : document.Circles id) :
    chainEnd document [] id = .revisited := by
  have ends := @endsAt_chainEnd document [] id (by simp)
  generalize chainEnd document [] id = last at ends
  cases ends with
  | item reached targetFound other =>
      obtain ⟨_, item, found, kind, _⟩ := (circles.along reached).exists_exposes
      cases targetFound.symm.trans found
      exact absurd kind other
  | untargeted reached targetFound _ bare =>
      obtain ⟨_, item, found, _, exposed⟩ := (circles.along reached).exists_exposes
      cases targetFound.symm.trans found
      rw [bare] at exposed
      cases exposed
  | outside reached absent _ =>
      obtain ⟨_, item, found, _⟩ := (circles.along reached).exists_exposes
      rw [absent] at found
      cases found
  | revisited => rfl
  | unknown reached absent _ =>
      obtain ⟨_, item, found, _⟩ := (circles.along reached).exists_exposes
      rw [absent] at found
      cases found

namespace Resolver

variable {separator : String} {resolver : Resolver}

/-! ### The path of a re-export -/

/-- Where an item is declared, if a resolver can tell. -/
def located? (document : Document) (separator : String) (resolver : Resolver) (id : ItemId) :
    Option ResolvedPath :=
  ((location document separator id).run resolver).1.toOption

theorem located?_of_placed {id : ItemId} {item : Item} {placement : Placement}
    (found : document.item? id = some item) (placed : resolver.placement? id = some placement) :
    located? document separator resolver id = some (declaredPath item placement) := by
  rw [located?, run_location_of_placed found placed]
  rfl

/-- The item at the end of a chain is placed once it is known where the chain leads, and
the chain leads to the path of that item. -/
theorem Leads.of_final {id target : ItemId} {item : Item} {path : ResolvedPath}
    (leads : Leads document resolver id path)
    (reached : ReflTransGen document.Exposes id target)
    (found : document.item? target = some item) (final : nextTarget? item = none) :
    ∃ placement, resolver.placement? target = some placement ∧
      path = declaredPath item placement := by
  cases leads.along reached with
  | declared otherFound _ placed =>
      cases found.symm.trans otherFound
      exact ⟨_, placed, rfl⟩
  | outside absent _ =>
      rw [absent] at found
      cases found
  | through exposes _ =>
      rw [(exposes_iff_nextTarget? found).mp exposes] at final
      cases final

theorem Leads.of_absent {id target : ItemId} {path : ResolvedPath}
    (leads : Leads document resolver id path)
    (reached : ReflTransGen document.Exposes id target) (absent : document.item? target = none) :
    ∃ summary, document.summary? target = some summary ∧
      path = { segments := summary.segments, isExternal := true } := by
  cases leads.along reached with
  | declared found _ _ =>
      rw [absent] at found
      cases found
  | outside _ known => exact ⟨_, known, rfl⟩
  | through exposes _ =>
      obtain ⟨item, found, _⟩ := exposes
      rw [absent] at found
      cases found

/-- The canonical path of a re-export is the plain one. -/
theorem plainReexport_of_canonical {id : ItemId} {path : ResolvedPath}
    (exposing : isReexport document id = true) (canonical : Canonical document resolver id path) :
    plainReexport document (located? document separator resolver) id = some path := by
  unfold plainReexport
  cases canonical with
  | declared _ other _ =>
      rw [exposing] at other
      cases other
  | exposed found _ placed leads =>
      have ends := @endsAt_chainEnd document [] id (by simp)
      generalize chainEnd document [] id = last at ends
      rw [located?_of_placed found placed]
      cases ends with
      | item reached targetFound other =>
          obtain ⟨there, targetPlaced, rfl⟩ :=
            leads.of_final reached targetFound (by rw [nextTarget?, if_neg other])
          dsimp only [Option.bind_eq_bind, Option.bind_some]
          rw [located?_of_placed targetFound targetPlaced]
          rfl
      | untargeted reached targetFound kind bare =>
          obtain ⟨there, targetPlaced, rfl⟩ :=
            leads.of_final reached targetFound (by rw [nextTarget?, if_pos kind, bare])
          dsimp only [Option.bind_eq_bind, Option.bind_some]
          rw [located?_of_placed targetFound targetPlaced]
          rfl
      | outside reached absent known =>
          obtain ⟨summary, otherKnown, rfl⟩ := leads.of_absent reached absent
          cases known.symm.trans otherKnown
          rfl
      | revisited circles => exact absurd circles leads.not_circles
      | unknown reached absent unknown =>
          obtain ⟨summary, known, _⟩ := leads.of_absent reached absent
          rw [unknown] at known
          cases known
  | circling found _ placed circles =>
      -- The resolver meets the circle while it follows, the plain function when it comes back.
      rw [located?_of_placed found placed, chainEnd_of_circles circles]
      rfl

/-- A re-export resolves to its plain path, whatever was asked before.  The locations that
the plain path is made of may be asked for at any later time. -/
theorem resolve_eq_plainReexport {source : Index.Source} {document : Document}
    (loaded : Index.load source = .ok document)
    (keyed : ∀ entry ∈ document.paths, entry.1.HasKey) (separator : String)
    (questions : List Question) {id : ItemId} (exposing : isReexport document id = true) :
    ∃ path, ((resolve document separator id).run (after document separator questions)).1 =
        .ok path ∧
      ∀ later, plainReexport document (located? document separator
        (after document separator (questions ++ .resolve id :: later))) id = some path := by
  have reached : Advances document separator {} (after document separator questions) :=
    after_advances questions
  have inside : id ∈ document.ids := by
    rw [isReexport, Option.any_eq_true] at exposing
    obtain ⟨item, found, _⟩ := exposing
    exact Document.isLocal_iff_mem_ids.mp (Document.isLocal_of_item?_eq_some found)
  obtain ⟨path, next, resolved⟩ : ∃ path next, (resolve document separator id).run
      (after document separator questions) = (.ok path, next) :=
    exists_resolve_eq_ok (Index.coherent_of_load loaded) keyed (after_advances _) inside
  refine ⟨path, by rw [resolved], ?_⟩
  intro later
  have asked := resolve_advances reached id
  rw [resolved] at asked
  have later_eq : after document separator (questions ++ .resolve id :: later) =
      (transcript document separator next later).2 := by
    rw [after_append, transcript, ask, Query.run_map, resolved]
  have canonical := canonical_of_resolve_eq_ok reached resolved
  rw [later_eq]
  exact plainReexport_of_canonical exposing
    (canonical.advances (transcript_advances (reached.trans asked) later))

/-- In the tangled index the self-exposing re-export keeps the segments of its own
location, after the item below it has been asked for. -/
theorem tangled_reexport_plain : ∃ document,
    Index.load (.text Index.tangledText) = .ok document ∧
    (∀ entry ∈ document.paths, entry.1.HasKey) ∧ isReexport document "3" = true ∧
    chainEnd document [] "3" = .revisited ∧
    ∃ path, ((resolve document "::" "3").run (after document "::" [.resolve "4"])).1 = .ok path ∧
      ∀ later, plainReexport document (located? document "::"
        (after document "::" ([.resolve "4"] ++ .resolve "3" :: later))) "3" = some path := by
  obtain ⟨document, loaded, keyed, items⟩ := Index.load_tangledItems
  have listed : ("3", ["9"], ItemKind.reexport, some "3") ∈ document.items.map
      fun item => (item.id, item.parents, item.kind, item.reexportTarget) := by
    rw [items]
    decide
  obtain ⟨item, member, same⟩ := List.mem_map.mp listed
  simp only [Prod.mk.injEq] at same
  obtain ⟨identifier, _, kind, exposed⟩ := same
  have found : document.item? "3" = some item := by
    rw [← identifier]
    exact (Index.coherent_of_load loaded).item?_id member
  have exposing : isReexport document "3" = true := by
    rw [isReexport, found]
    simpa using kind
  refine ⟨document, loaded, keyed, exposing, ?_, ?_⟩
  · exact chainEnd_of_circles ⟨"3", .refl, .single ⟨item, found, kind, exposed⟩⟩
  · exact resolve_eq_plainReexport loaded keyed "::" [.resolve "4"] exposing

end Resolver

end ApiCensus
