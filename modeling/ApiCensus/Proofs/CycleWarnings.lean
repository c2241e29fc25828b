import ApiCensus.Proofs.TotalResolution
import Mathlib.Data.Set.Card

/-!
# Warnings about cycles

A resolver warns about cycles of containers and of re-exports.  After all items
have been resolved the warnings are sound, complete and unique.  Each warning shows
a closed walk along one of the two relations, and no two show the same members.
Every cycle of re-exports is shown by a warning with its members.  Containers that
enclose each other may form many cycles at once, of which anchoring one item breaks
several; each such component is shown by a warning with members inside it.
-/

namespace ApiCensus

open Relation

namespace Cycle

/-- The members of a cycle that a way leads into are those from the first meeting
with its last identifier on. -/
theorem members_of_closing {id start : ItemId} {before between : List ItemId}
    (absent : start ∉ before) :
    members ⟨id, before ++ start :: between ++ [start]⟩ = start :: between ++ [start] := by
  have skipped : ∀ other ∈ before, (other != start) = true := by
    intro other member
    rw [bne_iff_ne]
    rintro rfl
    exact absent member
  unfold members
  dsimp only
  rw [List.getLast?_concat]
  dsimp only
  rw [List.append_assoc, List.dropWhile_append_of_pos skipped]
  simp

theorem sameMembers_iff {cycle other : Cycle} :
    cycle.sameMembers other = true ↔ cycle.members.toFinset = other.members.toFinset := by
  simp only [sameMembers, Bool.and_eq_true, List.all_eq_true, List.contains_iff_mem,
    Finset.ext_iff, List.mem_toFinset]
  constructor
  · rintro ⟨forth, back⟩ id
    exact ⟨forth id, back id⟩
  · intro same
    exact ⟨fun id => (same id).mp, fun id => (same id).mpr⟩

end Cycle

namespace Resolver

variable {document : Document} {separator : String} {resolver : Resolver}

/-! ### Reports and warnings -/

@[simp] theorem reports_report (resolver : Resolver) (cycle : Cycle) :
    (resolver.report cycle).reports = resolver.reports ++
      [⟨cycle, resolver.reports.any (·.cycle.sameMembers cycle)⟩] :=
  rfl

theorem exists_report_of_mem_warnings {warning : Cycle} (member : warning ∈ resolver.warnings) :
    ∃ report ∈ resolver.reports, report.cycle = warning := by
  obtain ⟨report, filtered, same⟩ := List.mem_map.mp member
  exact ⟨report, List.mem_of_mem_filter filtered, same⟩

/-- What a resolver keeps of its reports: the warnings are those that show new
members, and each report shows a closed walk. -/
structure Accounted (document : Document) (resolver : Resolver) : Prop where
  /-- The members of a report are those of a warning. -/
  warned : ∀ report ∈ resolver.reports, ∃ warning ∈ resolver.warnings,
    warning.members.toFinset = report.cycle.members.toFinset
  /-- No two warnings have the same members. -/
  distinct : (resolver.warnings.map (·.members.toFinset)).Nodup
  /-- The members of a report are a closed walk. -/
  closed : ∀ report ∈ resolver.reports,
    ClosedWalk document.ContainedIn report.cycle.members ∨
      ClosedWalk document.Exposes report.cycle.members

theorem warnings_report_of_repeated {cycle : Cycle}
    (repeated : resolver.reports.any (·.cycle.sameMembers cycle) = true) :
    (resolver.report cycle).warnings = resolver.warnings := by
  simp [warnings, repeated]

theorem warnings_report_of_new {cycle : Cycle}
    (new : resolver.reports.any (·.cycle.sameMembers cycle) = false) :
    (resolver.report cycle).warnings = resolver.warnings ++ [cycle] := by
  simp [warnings, new]

theorem Accounted.report {cycle : Cycle} (accounted : Accounted document resolver)
    (closed : ClosedWalk document.ContainedIn cycle.members ∨
      ClosedWalk document.Exposes cycle.members) :
    Accounted document (resolver.report cycle) := by
  have allClosed : ∀ report ∈ (resolver.report cycle).reports,
      ClosedWalk document.ContainedIn report.cycle.members ∨
        ClosedWalk document.Exposes report.cycle.members := by
    intro report member
    rw [reports_report, List.mem_append, List.mem_singleton] at member
    rcases member with old | rfl
    · exact accounted.closed report old
    · exact closed
  cases repeated : resolver.reports.any (·.cycle.sameMembers cycle) with
  | true =>
      have kept := warnings_report_of_repeated repeated
      refine ⟨?_, ?_, allClosed⟩
      · rw [kept]
        intro report member
        rw [reports_report, List.mem_append, List.mem_singleton] at member
        rcases member with old | rfl
        · exact accounted.warned report old
        · obtain ⟨earlier, earlierMember, same⟩ := List.any_eq_true.mp repeated
          obtain ⟨warning, warningMember, sameWarning⟩ := accounted.warned earlier earlierMember
          exact ⟨warning, warningMember, sameWarning.trans (Cycle.sameMembers_iff.mp same)⟩
      · rw [kept]
        exact accounted.distinct
  | false =>
      have grown := warnings_report_of_new repeated
      refine ⟨?_, ?_, allClosed⟩
      · rw [grown]
        intro report member
        rw [reports_report, List.mem_append, List.mem_singleton] at member
        rcases member with old | rfl
        · obtain ⟨warning, warningMember, same⟩ := accounted.warned report old
          exact ⟨warning, List.mem_append_left _ warningMember, same⟩
        · exact ⟨cycle, by simp, rfl⟩
      · rw [grown, List.map_append, List.nodup_append']
        refine ⟨accounted.distinct, List.nodup_singleton _, ?_⟩
        intro members old new
        obtain ⟨warning, warningMember, rfl⟩ := List.mem_map.mp old
        obtain ⟨report, reportMember, rfl⟩ := exists_report_of_mem_warnings warningMember
        rw [List.map_singleton, List.mem_singleton] at new
        have different := List.any_eq_false.mp repeated report reportMember
        exact different (Cycle.sameMembers_iff.mpr new)

theorem Accounted.of_reports_eq {next : Resolver} (accounted : Accounted document resolver)
    (same : next.reports = resolver.reports) : Accounted document next := by
  have sameWarnings : next.warnings = resolver.warnings := by
    unfold warnings
    rw [same]
  constructor
  · rw [same, sameWarnings]
    exact accounted.warned
  · rw [sameWarnings]
    exact accounted.distinct
  · rw [same]
    exact accounted.closed

/-- The account is kept, whatever a resolver was asked. -/
theorem accounted (reached : Advances document separator {} resolver) :
    Accounted document resolver := by
  induction reached with
  | refl => exact ⟨by simp, by simp [warnings], by simp⟩
  | @tail resolver next _ step induction =>
      cases step with
      | settle => exact induction.of_reports_eq rfl
      | @anchor id between _ linked =>
          have closed : ClosedWalk document.ContainedIn
              (Cycle.members ⟨id, [] ++ id :: between ++ [id]⟩) := by
            rw [Cycle.members_of_closing List.not_mem_nil]
            exact ⟨linked, id, between, rfl⟩
          exact (induction.report (.inl closed)).of_reports_eq rfl
      | remember => exact induction.of_reports_eq (by simp)
      | @close id start before between linked absent =>
          refine induction.report (.inr ?_)
          rw [Cycle.members_of_closing absent]
          refine ⟨?_, start, between, rfl⟩
          rw [List.append_assoc] at linked
          exact (List.isChain_append.mp linked).2.1

theorem Advances.mem_reports {next : Resolver} {report : CycleReport}
    (steps : Advances document separator resolver next) (member : report ∈ resolver.reports) :
    report ∈ next.reports := by
  induction steps with
  | refl => exact member
  | @tail middle next _ step induction =>
      cases step with
      | settle => exact induction
      | anchor => exact List.mem_append_left _ induction
      | remember => simpa using induction
      | close => exact List.mem_append_left _ induction

/-! ### Cycles of containers -/

/-- Once an item is placed that encloses `id` and is enclosed by it, a cycle among
such items has been reported. The first of them to be placed cannot have been
settled, since a container of it among them was still pending. -/
theorem exists_report_of_placed (reached : Advances document separator {} resolver)
    {id member : ItemId} (entangled : document.Entangled id member)
    (placed : resolver.isPlaced member = true) :
    ∃ report ∈ resolver.reports, ∀ other ∈ report.cycle.members,
      document.Entangled id other := by
  induction reached generalizing member with
  | refl => cases placed
  | @tail resolver next earlier step induction =>
      obtain ⟨placement, placementFound⟩ :=
        (sameKeys_of_advances (earlier.tail step)).isPlaced_iff.mp placed
      have kept : ∀ {other}, document.Entangled id other → resolver.isPlaced other = true →
          ∃ report ∈ next.reports, ∀ member ∈ report.cycle.members,
            document.Entangled id member := by
        intro other linked before
        obtain ⟨report, reportMember, inside⟩ := induction linked before
        exact ⟨report, Advances.mem_reports (.single step) reportMember, inside⟩
      cases step.origin placementFound with
      | kept before => exact kept entangled (isPlaced_of_placement? before)
      | settled _ found pending _ =>
          -- A container that is entangled, too, was placed before the item.
          obtain ⟨container, contained, linked⟩ := entangled.exists_container
          obtain ⟨owner, ownerFound, listed, isLocal⟩ := contained
          cases found.symm.trans ownerFound
          exact kept linked (isPlaced_of_pending?_eq_none pending listed isLocal)
      | @anchored between repeated linked reported =>
          have closed : ClosedWalk document.ContainedIn (member :: between ++ [member]) :=
            ⟨linked, member, between, rfl⟩
          refine ⟨⟨⟨member, [] ++ member :: between ++ [member]⟩, repeated⟩, reported, ?_⟩
          rw [Cycle.members_of_closing List.not_mem_nil]
          intro other otherMember
          exact entangled.trans ⟨closed.transGen (by simp) otherMember,
            closed.transGen otherMember (by simp)⟩

/-! ### Cycles of re-exports -/

/-- A re-export on a cycle leads nowhere. -/
theorem not_leads_of_closedWalk {walk : List ItemId}
    (closed : ClosedWalk document.Exposes walk) {id : ItemId} {path : ResolvedPath}
    (leads : Leads document resolver id path) : id ∉ walk := by
  induction leads with
  | declared found final _ =>
      intro member
      obtain ⟨target, _, exposes⟩ := closed.exists_link member
      rw [(exposes_iff_nextTarget? found).mp exposes] at final
      cases final
  | outside absent _ =>
      intro member
      obtain ⟨target, _, item, found, _⟩ := closed.exists_link member
      rw [absent] at found
      cases found
  | @through id target path exposes _ induction =>
      intro member
      exact induction ((closed.mem_iff_reaches Document.Exposes.unique member).mpr
        (.single exposes))

/-- Following a re-export on a cycle comes back, with the members of the cycle. -/
theorem trace_closes (reached : Advances document separator {} resolver)
    {walk : List ItemId} (closed : ClosedWalk document.Exposes walk) {id : ItemId}
    (member : id ∈ walk) :
    ∃ chain, trace document resolver.reexports [id] id = (chain, .closed) ∧
      (Cycle.members ⟨id, chain⟩).toFinset = walk.toFinset := by
  obtain ⟨arrives, starts⟩ := @trace_singleton_arrives document resolver.reexports id
  generalize trace document resolver.reexports [id] id = traced at arrives starts
  obtain ⟨chain, destination⟩ := traced
  dsimp only at arrives starts
  -- The chain never leaves the walk, so that it cannot end where nothing is exposed.
  have stays : ∀ {path}, path.IsChain document.Exposes → [id] <+: path →
      ∀ other ∈ path, other ∈ walk := by
    intro path linked pathStarts other inside
    exact (closed.mem_iff_reaches Document.Exposes.unique member).mpr
      (ClosedWalk.reaches_of_isChain linked pathStarts inside)
  cases arrives with
  | followed linked known =>
      have inside := stays linked starts _ List.mem_concat_self
      exact absurd inside (not_leads_of_closedWalk closed (leads_of_remembered reached known))
  | outside linked absent =>
      have inside := stays linked starts _ List.mem_concat_self
      obtain ⟨_, _, item, found, _⟩ := closed.exists_link inside
      rw [absent] at found
      cases found
  | declared linked found final =>
      have inside := stays linked starts _ List.mem_concat_self
      obtain ⟨_, _, exposes⟩ := closed.exists_link inside
      rw [(exposes_iff_nextTarget? found).mp exposes] at final
      cases final
  | @closed before between start linked absent =>
      refine ⟨_, rfl, ?_⟩
      rw [Cycle.members_of_closing absent]
      have startInside : start ∈ walk := stays linked starts start (by simp)
      have around : ClosedWalk document.Exposes (start :: between ++ [start]) := by
        refine ⟨?_, start, between, rfl⟩
        rw [List.append_assoc] at linked
        exact (List.isChain_append.mp linked).2.1
      ext other
      rw [List.mem_toFinset, List.mem_toFinset,
        around.mem_iff_reaches Document.Exposes.unique List.mem_cons_self,
        closed.mem_iff_reaches Document.Exposes.unique startInside]
  | missing linked absent =>
      have inside := stays linked starts _ List.mem_concat_self
      obtain ⟨_, _, item, found, _⟩ := closed.exists_link inside
      rw [absent] at found
      cases found

theorem exists_report_of_resolve {later : Resolver} {path : ResolvedPath} {id : ItemId}
    (reached : Advances document separator {} resolver)
    (resolved : (resolve document separator id).run resolver = (.ok path, later))
    {walk : List ItemId} (closed : ClosedWalk document.Exposes walk) (member : id ∈ walk) :
    ∃ report ∈ later.reports, report.cycle.members.toFinset = walk.toFinset := by
  have steps := @location_advances document separator resolver id
  have exposing : isReexport document id = true := by
    obtain ⟨_, _, item, found, kind, _⟩ := closed.exists_link member
    simp [isReexport, found, kind]
  rw [run_resolve] at resolved
  generalize (location document separator id).run resolver = located at resolved steps
  obtain ⟨cause | place, next⟩ := located
  · cases resolved
  · obtain ⟨chain, traced, sameMembers⟩ := trace_closes (reached.trans steps) closed member
    dsimp only at resolved traced
    rw [if_pos exposing, run_follow, traced] at resolved
    cases resolved
    exact ⟨⟨⟨id, chain⟩, _⟩, List.mem_append_right _ List.mem_cons_self, sameMembers⟩

/-! ### All items resolved -/

/-- The member sets of the cycles of re-exports. -/
def exposureCycles (document : Document) : Set (Finset ItemId) :=
  { members | ∃ walk, ClosedWalk document.Exposes walk ∧ walk.toFinset = members }

/-- Warnings that show the cycles of an index soundly, completely and once. -/
structure ShowsCycles (document : Document) (warnings : List Cycle) : Prop where
  /-- A warning shows a closed walk along containers or along re-exports. -/
  sound : ∀ warning ∈ warnings, ClosedWalk document.ContainedIn warning.members ∨
    ClosedWalk document.Exposes warning.members
  /-- No two warnings show the same members. -/
  unique : (warnings.map (·.members.toFinset)).Nodup
  /-- Every cycle of re-exports is shown with exactly its members. -/
  exposures : ∀ members ∈ exposureCycles document,
    ∃ warning ∈ warnings, warning.members.toFinset = members
  /-- Among items that enclose each other a cycle is shown. -/
  components : ∀ id, TransGen document.ContainedIn id id →
    ∃ warning ∈ warnings, ∀ member ∈ warning.members, document.Entangled id member

theorem ShowsCycles.eq_nil_iff {warnings : List Cycle} (shows : ShowsCycles document warnings) :
    warnings = [] ↔ (∀ id, ¬ TransGen document.ContainedIn id id) ∧
      ∀ id, ¬ TransGen document.Exposes id id := by
  constructor
  · rintro rfl
    constructor
    · intro id cyclic
      obtain ⟨_, member, _⟩ := shows.components id cyclic
      cases member
    · intro id cyclic
      obtain ⟨walk, closed, _⟩ := ClosedWalk.exists_of_transGen cyclic
      obtain ⟨_, member, _⟩ := shows.exposures _ ⟨walk, closed, rfl⟩
      cases member
  · rintro ⟨uncontained, unexposed⟩
    apply List.eq_nil_iff_forall_not_mem.mpr
    intro warning member
    rcases shows.sound warning member with closed | closed
    · obtain ⟨start, inside⟩ := closed.start_mem
      exact uncontained start (closed.transGen inside inside)
    · obtain ⟨start, inside⟩ := closed.start_mem
      exact unexposed start (closed.transGen inside inside)

/-- Where containers are acyclic there are as many warnings as cycles of re-exports. -/
theorem ShowsCycles.length_eq {warnings : List Cycle} (shows : ShowsCycles document warnings)
    (uncontained : ∀ id, ¬ TransGen document.ContainedIn id id) :
    warnings.length = (exposureCycles document).ncard := by
  have shown : exposureCycles document = (warnings.map (·.members.toFinset)).toFinset := by
    ext members
    rw [Finset.mem_coe, List.mem_toFinset, List.mem_map]
    constructor
    · exact shows.exposures members
    · rintro ⟨warning, member, rfl⟩
      rcases shows.sound warning member with closed | closed
      · obtain ⟨start, inside⟩ := closed.start_mem
        exact absurd (closed.transGen inside inside) (uncontained start)
      · exact ⟨warning.members, closed, rfl⟩
  rw [shown, Set.ncard_coe_finset, List.toFinset_card_of_nodup shows.unique, List.length_map]

/-- After all items have been resolved by a new resolver, its warnings show the cycles
of the index soundly, completely and once.  So there are none exactly if neither
relation has a cycle, and where containers are acyclic there are as many as there are
cycles of re-exports. -/
theorem warnings_show_cycles {source : Index.Source} (loaded : Index.load source = .ok document)
    (keyed : ∀ entry ∈ document.paths, entry.1.HasKey) (separator : String) :
    ∃ paths resolver, (resolveAll document separator).run {} = (.ok paths, resolver) ∧
      ShowsCycles document resolver.warnings ∧
      (resolver.warnings = [] ↔ (∀ id, ¬ TransGen document.ContainedIn id id) ∧
        ∀ id, ¬ TransGen document.Exposes id id) ∧
      ((∀ id, ¬ TransGen document.ContainedIn id id) →
        resolver.warnings.length = (exposureCycles document).ncard) := by
  obtain ⟨ids, paths, resolver, sorted, resolvedAll, resolves⟩ :=
    @exists_resolveAll_eq_ok document separator {} (Index.coherent_of_load loaded) keyed .refl
  have account := accounted (resolves.advances .refl)
  have turn : ∀ id ∈ document.ids, ∃ earlier path later,
      Advances document separator {} earlier ∧
        (resolve document separator id).run earlier = (.ok path, later) ∧
        Advances document separator later resolver := by
    intro id member
    exact resolves.exists_turn .refl ((ItemId.sort_perm sorted).mem_iff.mpr member)
  have shows : ShowsCycles document resolver.warnings := by
    refine ⟨?_, account.distinct, ?_, ?_⟩
    · intro warning member
      obtain ⟨report, reportMember, rfl⟩ := exists_report_of_mem_warnings member
      exact account.closed report reportMember
    · rintro _ ⟨walk, closed, rfl⟩
      obtain ⟨id, member⟩ := closed.start_mem
      obtain ⟨_, _, exposes⟩ := closed.exists_link member
      obtain ⟨earlier, path, later, reached, resolved, steps⟩ := turn id exposes.mem_ids
      obtain ⟨report, reportMember, same⟩ :=
        exists_report_of_resolve reached resolved closed member
      obtain ⟨warning, warningMember, sameWarning⟩ :=
        account.warned report (steps.mem_reports reportMember)
      exact ⟨warning, warningMember, sameWarning.trans same⟩
    · intro id cyclic
      obtain ⟨_, _, contained⟩ := TransGen.tail'_iff.mp cyclic
      obtain ⟨earlier, path, later, reached, resolved, steps⟩ := turn id contained.mem_ids
      obtain ⟨report, reportMember, inside⟩ :=
        exists_report_of_placed (resolves.advances .refl) ⟨cyclic, cyclic⟩
          (steps.isPlaced (isPlaced_of_resolve reached resolved))
      obtain ⟨warning, warningMember, same⟩ := account.warned report reportMember
      refine ⟨warning, warningMember, ?_⟩
      intro member inWarning
      apply inside member
      rw [← List.mem_toFinset, ← same, List.mem_toFinset]
      exact inWarning
  exact ⟨paths, resolver, resolvedAll, shows, shows.eq_nil_iff, shows.length_eq⟩

/-- The warnings about the tangled index. -/
theorem tangled_warnings : ∃ document,
    Index.load (.text Index.tangledText) = .ok document ∧
    (∀ entry ∈ document.paths, entry.1.HasKey) ∧
    ∃ paths resolver, (resolveAll document "::").run {} = (.ok paths, resolver) ∧
      ShowsCycles document resolver.warnings ∧
      (resolver.warnings = [] ↔ (∀ id, ¬ TransGen document.ContainedIn id id) ∧
        ∀ id, ¬ TransGen document.Exposes id id) ∧
      ((∀ id, ¬ TransGen document.ContainedIn id id) →
        resolver.warnings.length = (exposureCycles document).ncard) := by
  obtain ⟨document, loaded, keyed, _⟩ := Index.load_tangledText
  exact ⟨document, loaded, keyed, warnings_show_cycles loaded keyed "::"⟩

end Resolver

end ApiCensus
