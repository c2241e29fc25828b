import ApiCensus.Proofs.ResolverRuns

/-!
# Chains of re-exports

A re-export exposes one target only, so the chain of targets from an identifier is
determined.  Either it leads to a path or it circles, never both.  Following it gives
that path or reports that cycle, whatever has been remembered before, and what a
resolver answers for a re-export is read off the chain.
-/

namespace ApiCensus

open Relation

/-- The chain of re-exports from the identifier runs into a cycle. -/
def Document.Circles (document : Document) (id : ItemId) : Prop :=
  ∃ start, ReflTransGen document.Exposes id start ∧ TransGen document.Exposes start start

namespace Document.Circles

variable {document : Document} {id target : ItemId}

theorem exists_exposes (circles : document.Circles id) :
    ∃ target, document.Exposes id target := by
  obtain ⟨start, reached, cyclic⟩ := circles
  rcases reached.cases_head with rfl | ⟨target, exposes, _⟩
  · obtain ⟨target, exposes, _⟩ := TransGen.head'_iff.mp cyclic
    exact ⟨target, exposes⟩
  · exact ⟨target, exposes⟩

/-- The next identifier of a chain that circles circles, too. -/
theorem next (circles : document.Circles id) (exposes : document.Exposes id target) :
    document.Circles target := by
  obtain ⟨start, reached, cyclic⟩ := circles
  rcases reached.cases_head with rfl | ⟨other, otherExposes, above⟩
  · obtain ⟨other, otherExposes, back⟩ := TransGen.head'_iff.mp cyclic
    cases Exposes.unique id target other exposes otherExposes
    exact ⟨id, back, cyclic⟩
  · cases Exposes.unique id target other exposes otherExposes
    exact ⟨start, above, cyclic⟩

theorem along (circles : document.Circles id) (reached : ReflTransGen document.Exposes id target) :
    document.Circles target := by
  induction reached with
  | refl => exact circles
  | tail _ exposes induction => exact induction.next exposes

end Document.Circles

namespace Resolver

variable {document : Document} {separator : String} {resolver : Resolver}

/-! ### Where a chain leads -/

theorem Leads.next {id target : ItemId} {path : ResolvedPath}
    (leads : Leads document resolver id path) (exposes : document.Exposes id target) :
    Leads document resolver target path := by
  cases leads with
  | declared found final _ =>
      rw [(exposes_iff_nextTarget? found).mp exposes] at final
      cases final
  | outside absent _ =>
      obtain ⟨item, found, _⟩ := exposes
      rw [absent] at found
      cases found
  | through otherExposes rest =>
      cases Document.Exposes.unique _ _ _ exposes otherExposes
      exact rest

theorem Leads.along {id target : ItemId} {path : ResolvedPath}
    (leads : Leads document resolver id path)
    (reached : ReflTransGen document.Exposes id target) : Leads document resolver target path := by
  induction reached with
  | refl => exact leads
  | tail _ exposes induction => exact induction.next exposes

theorem Leads.unique {id : ItemId} {path other : ResolvedPath}
    (leads : Leads document resolver id path) (otherLeads : Leads document resolver id other) :
    path = other := by
  induction leads with
  | declared found final placed =>
      cases otherLeads with
      | declared otherFound _ otherPlaced =>
          cases found.symm.trans otherFound
          cases placed.symm.trans otherPlaced
          rfl
      | outside absent _ =>
          rw [found] at absent
          cases absent
      | through exposes _ =>
          rw [(exposes_iff_nextTarget? found).mp exposes] at final
          cases final
  | outside absent known =>
      cases otherLeads with
      | declared found _ _ =>
          rw [absent] at found
          cases found
      | outside _ otherKnown =>
          cases known.symm.trans otherKnown
          rfl
      | through exposes _ =>
          obtain ⟨item, found, _⟩ := exposes
          rw [absent] at found
          cases found
  | through exposes _ induction => exact induction (otherLeads.next exposes)

/-- A chain that leads to a path does not circle. -/
theorem Leads.not_circles {id : ItemId} {path : ResolvedPath}
    (leads : Leads document resolver id path) : ¬ document.Circles id := by
  induction leads with
  | declared found final _ =>
      intro circles
      obtain ⟨target, exposes⟩ := circles.exists_exposes
      rw [(exposes_iff_nextTarget? found).mp exposes] at final
      cases final
  | outside absent _ =>
      intro circles
      obtain ⟨target, item, found, _⟩ := circles.exists_exposes
      rw [absent] at found
      cases found
  | through exposes _ induction => exact fun circles => induction (circles.next exposes)

/-! ### Following a chain -/

theorem reaches_last {before : List ItemId} {last id : ItemId}
    (linked : (before ++ [last]).IsChain document.Exposes) (starts : [id] <+: before ++ [last]) :
    ReflTransGen document.Exposes id last :=
  ClosedWalk.reaches_of_isChain linked starts List.mem_concat_self

/-- A chain that is found to close circles. -/
theorem circles_of_closing {before between : List ItemId} {start id : ItemId}
    (linked : (before ++ start :: between ++ [start]).IsChain document.Exposes)
    (starts : [id] <+: before ++ start :: between ++ [start]) : document.Circles id := by
  refine ⟨start, ClosedWalk.reaches_of_isChain linked starts (by simp), ?_⟩
  rw [List.append_assoc] at linked
  have closed : ClosedWalk document.Exposes (start :: between ++ [start]) :=
    ⟨(List.isChain_append.mp linked).2.1, start, between, rfl⟩
  exact closed.transGen List.mem_cons_self List.mem_cons_self

/-- Following a chain that leads to a path gives that path. -/
theorem exists_follow_of_leads (reached : Advances document separator {} resolver) {id : ItemId}
    {path : ResolvedPath} (leads : Leads document resolver id path) :
    ∃ next, (follow document separator id).run resolver = (.ok (.ok path), next) := by
  obtain ⟨arrives, starts⟩ := @trace_singleton_arrives document resolver.reexports id
  rw [run_follow]
  generalize trace document resolver.reexports [id] id = traced at arrives starts
  obtain ⟨chain, destination⟩ := traced
  dsimp only at arrives starts
  cases arrives with
  | followed linked known =>
      have remembered := leads_of_remembered reached known
      cases (leads.along (reaches_last linked starts)).unique remembered
      exact ⟨_, rfl⟩
  | outside linked absent known =>
      have ends : Leads document resolver _ _ := .outside absent known
      cases (leads.along (reaches_last linked starts)).unique ends
      exact ⟨_, rfl⟩
  | @declared before last item linked found final =>
      -- The last item is placed, for otherwise the chain would lead nowhere yet.
      cases leads.along (reaches_last linked starts) with
      | declared otherFound _ placed =>
          cases found.symm.trans otherFound
          dsimp only
          rw [run_location_of_placed found placed]
          exact ⟨_, rfl⟩
      | outside absent _ =>
          rw [absent] at found
          cases found
      | through exposes _ =>
          rw [(exposes_iff_nextTarget? found).mp exposes] at final
          cases final
  | closed linked _ => exact absurd (circles_of_closing linked starts) leads.not_circles
  | missing linked absent unknown =>
      cases leads.along (reaches_last linked starts) with
      | declared found _ _ =>
          rw [absent] at found
          cases found
      | outside _ known =>
          rw [unknown] at known
          cases known
      | through exposes _ =>
          obtain ⟨item, found, _⟩ := exposes
          rw [absent] at found
          cases found

/-- Following a chain that circles reports a cycle and changes nothing. -/
theorem exists_follow_of_circles (reached : Advances document separator {} resolver) {id : ItemId}
    (circles : document.Circles id) :
    ∃ cycle, (follow document separator id).run resolver = (.ok (.error cycle), resolver) := by
  obtain ⟨arrives, starts⟩ := @trace_singleton_arrives document resolver.reexports id
  rw [run_follow]
  generalize trace document resolver.reexports [id] id = traced at arrives starts
  obtain ⟨chain, destination⟩ := traced
  dsimp only at arrives starts
  cases arrives with
  | followed linked known =>
      exact absurd (circles.along (reaches_last linked starts))
        (leads_of_remembered reached known).not_circles
  | outside linked absent _ =>
      obtain ⟨_, item, found, _⟩ := (circles.along (reaches_last linked starts)).exists_exposes
      rw [absent] at found
      cases found
  | declared linked found final =>
      obtain ⟨_, exposes⟩ := (circles.along (reaches_last linked starts)).exists_exposes
      rw [(exposes_iff_nextTarget? found).mp exposes] at final
      cases final
  | closed => exact ⟨_, rfl⟩
  | missing linked absent _ =>
      obtain ⟨_, item, found, _⟩ := (circles.along (reaches_last linked starts)).exists_exposes
      rw [absent] at found
      cases found

/-- A path that is found by following a chain is where the chain leads. -/
theorem leads_of_follow_eq_ok (reached : Advances document separator {} resolver) {id : ItemId}
    {path : ResolvedPath} {next : Resolver}
    (followed : (follow document separator id).run resolver = (.ok (.ok path), next)) :
    Leads document next id path := by
  obtain ⟨arrives, starts⟩ := @trace_singleton_arrives document resolver.reexports id
  rw [run_follow] at followed
  generalize trace document resolver.reexports [id] id = traced at arrives starts followed
  obtain ⟨chain, destination⟩ := traced
  dsimp only at arrives starts followed
  -- Remembering the chain keeps where it leads.
  have kept : ∀ {middle : Resolver} {before last path},
      (before ++ [last]).IsChain document.Exposes → [id] <+: before ++ [last] →
      Leads document middle last path →
      Leads document (rememberChain document middle (before ++ [last]) path) id path := by
    intro middle before last path linked starts leads
    have all := leads_of_isChain linked leads
    have steps : Advances document separator middle _ := rememberChain_advances all
    exact (all id (starts.subset List.mem_cons_self)).advances steps
  cases arrives with
  | followed linked known =>
      cases followed
      exact kept linked starts (leads_of_remembered reached known)
  | outside linked absent known =>
      cases followed
      exact kept linked starts (.outside absent known)
  | @declared before last item linked found final =>
      dsimp only at followed
      generalize asked : (location document separator last).run resolver = result at followed
      obtain ⟨cause | there, middle⟩ := result
      · cases followed
      · cases followed
        obtain ⟨other, placement, otherFound, placed, rfl⟩ := of_location_eq_ok asked
        cases found.symm.trans otherFound
        exact kept linked starts (.declared found final placed)
  | closed => cases followed
  | missing => cases followed

/-! ### Canonical paths -/

/-- The canonical path of an item by what a resolver has found out. -/
inductive Canonical (document : Document) (resolver : Resolver) (id : ItemId) :
    ResolvedPath → Prop
  /-- An item that is no re-export has the path at which it is declared. -/
  | declared {item : Item} {placement : Placement} :
      document.item? id = some item → isReexport document id = false →
      resolver.placement? id = some placement →
      Canonical document resolver id (declaredPath item placement)
  /-- A re-export has the path that it leads to. -/
  | exposed {item : Item} {placement : Placement} {path : ResolvedPath} :
      document.item? id = some item → isReexport document id = true →
      resolver.placement? id = some placement → Leads document resolver id path →
      Canonical document resolver id
        { path with isReexport := true, parent := placement.parent, module := placement.module }
  /-- A re-export whose chain circles has the path at which it is declared itself. -/
  | circling {item : Item} {placement : Placement} :
      document.item? id = some item → isReexport document id = true →
      resolver.placement? id = some placement → document.Circles id →
      Canonical document resolver id { declaredPath item placement with isReexport := true }

theorem Canonical.advances {id : ItemId} {path : ResolvedPath} {next : Resolver}
    (steps : Advances document separator resolver next)
    (canonical : Canonical document resolver id path) : Canonical document next id path := by
  cases canonical with
  | declared found other placed => exact .declared found other (steps.placement? placed)
  | exposed found exposing placed leads =>
      exact .exposed found exposing (steps.placement? placed) (leads.advances steps)
  | circling found exposing placed circles =>
      exact .circling found exposing (steps.placement? placed) circles

/-- A path that a resolver answers is canonical. -/
theorem canonical_of_resolve_eq_ok (reached : Advances document separator {} resolver)
    {id : ItemId} {path : ResolvedPath} {next : Resolver}
    (resolved : (resolve document separator id).run resolver = (.ok path, next)) :
    Canonical document next id path := by
  have steps := @location_advances document separator resolver id
  rw [run_resolve] at resolved
  generalize located : (location document separator id).run resolver = result at resolved steps
  obtain ⟨cause | there, middle⟩ := result
  · cases resolved
  · obtain ⟨item, placement, found, placed, rfl⟩ := of_location_eq_ok located
    dsimp only at resolved
    split at resolved
    · rename_i exposing
      have more := follow_advances (reached.trans steps) id
      generalize followed : (follow document separator id).run middle = result at resolved more
      obtain ⟨cause | ⟨cycle | target⟩, last⟩ := result
      · cases resolved
      · cases resolved
        obtain ⟨rfl, before, start, between, rfl, _, linked, starts⟩ := of_follow_eq_error followed
        exact .circling found exposing placed (circles_of_closing linked starts)
      · cases resolved
        exact .exposed found exposing (more.placement? placed)
          (leads_of_follow_eq_ok (reached.trans steps) followed)
    · rename_i other
      cases resolved
      exact .declared found (by simpa using other) placed

/-- A resolver answers with the canonical path once it is determined. -/
theorem resolve_of_canonical (reached : Advances document separator {} resolver) {id : ItemId}
    {path : ResolvedPath} (canonical : Canonical document resolver id path) :
    ((resolve document separator id).run resolver).1 = .ok path := by
  rw [run_resolve]
  cases canonical with
  | declared found other placed =>
      rw [run_location_of_placed found placed]
      simp [other]
  | exposed found exposing placed leads =>
      obtain ⟨next, followed⟩ := exists_follow_of_leads reached leads
      rw [run_location_of_placed found placed]
      simp only [exposing, if_true, followed]
      rfl
  | circling found exposing placed circles =>
      obtain ⟨cycle, followed⟩ := exists_follow_of_circles reached circles
      rw [run_location_of_placed found placed]
      simp only [exposing, if_true, followed]

end Resolver

end ApiCensus
