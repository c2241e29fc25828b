import ApiCensus.Proofs.ResolverSteps

/-!
# Questions as sequences of steps

The climb to the containers of an item keeps a stack on which every identifier is
a container of the one below it.  An identifier that is met again therefore closes
a walk along containers, and the climb only takes steps of the resolver.  The same
holds for following re-exports, for resolving one item, and for resolving all.
-/

namespace ApiCensus

/-- A question after another one is put to the state that the first one leaves. -/
theorem Query.run_bind {α β : Type} (first : Query α) (next : α → Query β)
    (resolver : Resolver) :
    (first >>= next).run resolver =
      match first.run resolver with
      | (.error cause, after) => (.error cause, after)
      | (.ok value, after) => (next value).run after := by
  change (ExceptT.bindCont next (first.run resolver).1) (first.run resolver).2 = _
  rcases first.run resolver with ⟨cause | value, after⟩
  · rfl
  · rfl

theorem Query.run_get_bind {β : Type} (next : Resolver → Query β) (resolver : Resolver) :
    (get >>= next : Query β).run resolver = (next resolver).run resolver :=
  rfl

namespace Resolver

open Relation

variable {document : Document} {separator : String}

/-! ### Climbing -/

section

variable {resolver : Resolver} {id : ItemId} {below : List ItemId}

theorem climb_of_absent (unplaced : ¬ resolver.isPlaced id = true)
    (absent : document.item? id = none) :
    climb document separator resolver (id :: below) = (.error (.shape .missingKey), resolver) := by
  rw [climb, dif_neg unplaced]
  split
  · rfl
  · rename_i found
    rw [absent] at found
    cases found

theorem climb_of_pending {item : Item} {next : ItemId} (unplaced : ¬ resolver.isPlaced id = true)
    (found : document.item? id = some item)
    (pending : pending? document resolver item = some next) :
    climb document separator resolver (id :: below) =
      if (id :: below).contains next then
        climb document separator (breakCycle document resolver next (id :: below)) (id :: below)
      else climb document separator resolver (next :: id :: below) := by
  rw [climb, dif_neg unplaced]
  split
  · rename_i absent
    rw [absent] at found
    cases found
  · rename_i otherFound
    cases found.symm.trans otherFound
    split
    · rename_i otherPending
      cases pending.symm.trans otherPending
      rw [dite_eq_ite]
    · rename_i settled
      rw [pending] at settled
      cases settled

theorem climb_of_settled {item : Item} {placement : Placement}
    (unplaced : ¬ resolver.isPlaced id = true) (found : document.item? id = some item)
    (ready : pending? document resolver item = none)
    (settled : settle document separator resolver item = .ok placement) :
    climb document separator resolver (id :: below) =
      climb document separator (resolver.place id placement) below := by
  rw [climb, dif_neg unplaced]
  split
  · rename_i absent
    rw [absent] at found
    cases found
  · rename_i otherFound
    cases found.symm.trans otherFound
    split
    · rename_i pending
      rw [ready] at pending
      cases pending
    · rw [settled]

theorem climb_of_unsettled {item : Item} {cause : Failure}
    (unplaced : ¬ resolver.isPlaced id = true) (found : document.item? id = some item)
    (ready : pending? document resolver item = none)
    (settled : settle document separator resolver item = .error cause) :
    climb document separator resolver (id :: below) = (.error cause, resolver) := by
  rw [climb, dif_neg unplaced]
  split
  · rename_i absent
    rw [absent] at found
    cases found
  · rename_i otherFound
    cases found.symm.trans otherFound
    split
    · rename_i pending
      rw [ready] at pending
      cases pending
    · rw [settled]

end

/-- Every identifier on the stack contains the one below it. -/
def Ascending (document : Document) (stack : List ItemId) : Prop :=
  stack.IsChain fun upper lower => document.ContainedIn lower upper

theorem containedIn_of_pending? {resolver : Resolver} {id next : ItemId} {item : Item}
    (found : document.item? id = some item)
    (pending : pending? document resolver item = some next) :
    document.ContainedIn id next :=
  ⟨item, found, List.mem_of_find?_eq_some pending, (of_pending?_eq_some pending).1⟩

/-- A container of the topmost identifier that is on the stack closes a walk: down
the stack to it and back by the way the climb took. -/
theorem Ascending.closes {stack : List ItemId} (ascending : Ascending document stack)
    {top next : ItemId} (isTop : stack.head? = some top) (member : next ∈ stack)
    (contained : document.ContainedIn top next) :
    (next :: (stack.takeWhile (· != next)).reverse ++ [next]).IsChain
      document.ContainedIn := by
  obtain ⟨above, below, rfl, absent⟩ := List.eq_append_cons_of_mem member
  have taken : (above ++ next :: below).takeWhile (· != next) = above := by
    rw [List.takeWhile_append_of_pos]
    · simp
    · intro id idMember
      simp only [bne_iff_ne, ne_eq]
      rintro rfl
      exact absent idMember
  have shown : (above ++ [next]).IsChain fun upper lower => document.ContainedIn lower upper := by
    refine List.IsChain.prefix ascending ⟨below, ?_⟩
    simp
  have reversed : (next :: above.reverse).IsChain document.ContainedIn := by
    have turned := List.isChain_reverse.mpr shown
    simpa using turned
  rw [taken]
  refine List.isChain_append.mpr ⟨reversed, List.isChain_singleton next, ?_⟩
  intro last isLast first isFirst
  have lastIsTop : (next :: above.reverse).getLast? = some top := by
    have sameHead : (above ++ [next]).head? = some top := by
      cases above with
      | nil => simpa using isTop
      | cons first above => simpa using isTop
    rw [← List.head?_reverse]
    simpa using sameHead
  cases lastIsTop.symm.trans isLast
  cases isFirst
  exact contained

theorem climb_advances {resolver : Resolver} {stack : List ItemId}
    (ascending : Ascending document stack) :
    Advances document separator resolver (climb document separator resolver stack).2 := by
  -- The rounds keep the stack ascending: only a container of the topmost item is pushed.
  fun_induction climb document separator resolver stack with
  | case1 => exact .refl
  | case2 resolver id below _ induction => exact induction ascending.tail
  | case3 => exact .refl
  | case4 resolver id below _ item found next pending on induction =>
      have closes := ascending.closes rfl (List.contains_iff_mem.mp on)
        (containedIn_of_pending? found pending)
      exact .head (.anchor (of_pending?_eq_some pending).2 closes) (induction ascending)
  | case5 resolver id below _ item found next pending _ induction =>
      have contained := containedIn_of_pending? found pending
      exact induction (List.isChain_cons_cons.mpr ⟨contained, ascending⟩)
  | case6 => exact .refl
  | case7 resolver id below placed item found pending placement settled induction =>
      have fresh : resolver.isPlaced id = false := by simpa using placed
      exact .head (.settle fresh found pending settled) (induction ascending.tail)

/-- A climb that succeeds places all identifiers on the stack. -/
theorem isPlaced_of_climb_eq_ok {resolver next : Resolver} {stack : List ItemId}
    (success : climb document separator resolver stack = (.ok (), next))
    (ascending : Ascending document stack) {id : ItemId} (member : id ∈ stack) :
    next.isPlaced id = true := by
  fun_induction climb document separator resolver stack with
  | case1 => cases member
  | case2 resolver top below placed induction =>
      rcases List.mem_cons.mp member with rfl | lower
      · have steps : Advances document separator resolver
            (climb document separator resolver below).2 := climb_advances ascending.tail
        rw [success] at steps
        exact steps.isPlaced placed
      · exact induction success ascending.tail lower
  | case3 => cases success
  | case4 resolver top below _ item found pending pendingFound on induction =>
      exact induction success ascending member
  | case5 resolver top below _ item found pending pendingFound _ induction =>
      have contained := containedIn_of_pending? found pendingFound
      exact induction success (List.isChain_cons_cons.mpr ⟨contained, ascending⟩)
        (List.mem_cons_of_mem _ member)
  | case6 => cases success
  | case7 resolver top below _ item found _ placement _ induction =>
      rcases List.mem_cons.mp member with rfl | lower
      · have steps : Advances document separator (resolver.place id placement)
            (climb document separator (resolver.place id placement) below).2 :=
          climb_advances ascending.tail
        rw [success] at steps
        exact steps.isPlaced (by simp)
      · exact induction success ascending.tail lower

/-! ### Locating -/

theorem run_location (resolver : Resolver) (id : ItemId) :
    (location document separator id).run resolver =
      match climb document separator resolver [id] with
      | (.error cause, next) => (.error cause, next)
      | (.ok (), next) =>
          match document.item? id, next.placement? id with
          | some item, some placement => (.ok (declaredPath item placement), next)
          | _, _ => (.error (.shape .missingKey), next) := by
  unfold location
  rw [Query.run_bind, ExceptT.run_mk]
  rcases climb document separator resolver [id] with ⟨cause | ⟨⟩, next⟩
  · rfl
  · dsimp only
    rw [Query.run_get_bind]
    cases document.item? id with
    | none => rfl
    | some item =>
        cases next.placement? id with
        | none => rfl
        | some placement => rfl

theorem of_location_eq_ok {resolver next : Resolver} {id : ItemId} {path : ResolvedPath}
    (success : (location document separator id).run resolver = (.ok path, next)) :
    ∃ item placement, document.item? id = some item ∧
      next.placement? id = some placement ∧ path = declaredPath item placement := by
  rw [run_location] at success
  split at success
  · cases success
  · split at success
    · rename_i item placement found placed
      cases success
      exact ⟨item, placement, found, placed, rfl⟩
    · cases success

/-- An item that is placed is located without a change. -/
theorem run_location_of_placed {resolver : Resolver} {id : ItemId} {item : Item}
    {placement : Placement} (found : document.item? id = some item)
    (placed : resolver.placement? id = some placement) :
    (location document separator id).run resolver =
      (.ok (declaredPath item placement), resolver) := by
  have isPlaced : resolver.isPlaced id = true := isPlaced_of_placement? placed
  have climbed : climb document separator resolver [id] = (.ok (), resolver) := by
    rw [climb, dif_pos isPlaced, climb]
  rw [run_location, climbed]
  dsimp only
  rw [found, placed]

theorem location_advances (resolver : Resolver) (id : ItemId) :
    Advances document separator resolver
      ((location document separator id).run resolver).2 := by
  have steps : Advances document separator resolver
      (climb document separator resolver [id]).2 :=
    climb_advances (List.isChain_singleton id)
  rw [run_location]
  generalize climb document separator resolver [id] = climbed at steps
  rcases climbed with ⟨cause | ⟨⟩, next⟩
  · exact steps
  · dsimp only at steps ⊢
    split
    · exact steps
    · exact steps

/-! ### Following re-exports -/

theorem exposes_iff_nextTarget? {id target : ItemId} {item : Item}
    (found : document.item? id = some item) :
    document.Exposes id target ↔ nextTarget? item = some target := by
  unfold nextTarget?
  constructor
  · rintro ⟨other, otherFound, kind, exposed⟩
    cases found.symm.trans otherFound
    rw [if_pos kind, exposed]
  · intro next
    split at next
    · rename_i kind
      exact ⟨item, found, kind, next⟩
    · cases next

theorem trace_of_absent {reexports : List (ItemId × ResolvedPath)} {chain : List ItemId}
    {id : ItemId} (unknown : reexports.lookup id = none) (absent : document.item? id = none) :
    trace document reexports chain id =
      (chain, ((document.summary? id).map Destination.outside).getD .missing) := by
  rw [trace, unknown]
  dsimp only
  split
  · cases document.summary? id with
    | some summary => rfl
    | none => rfl
  · rename_i found
    rw [absent] at found
    cases found

theorem trace_of_declared {reexports : List (ItemId × ResolvedPath)} {chain : List ItemId}
    {id : ItemId} {item : Item} (unknown : reexports.lookup id = none)
    (found : document.item? id = some item) (final : nextTarget? item = none) :
    trace document reexports chain id = (chain, .declared id) := by
  rw [trace, unknown]
  dsimp only
  split
  · rename_i absent
    rw [absent] at found
    cases found
  · rename_i otherFound
    cases found.symm.trans otherFound
    rw [final]

theorem trace_of_target {reexports : List (ItemId × ResolvedPath)} {chain : List ItemId}
    {id target : ItemId} {item : Item} (unknown : reexports.lookup id = none)
    (found : document.item? id = some item) (exposed : nextTarget? item = some target) :
    trace document reexports chain id =
      if chain.contains target then (chain ++ [target], .closed)
      else trace document reexports (chain ++ [target]) target := by
  rw [trace, unknown]
  dsimp only
  split
  · rename_i absent
    rw [absent] at found
    cases found
  · rename_i otherFound
    cases found.symm.trans otherFound
    rw [exposed]
    dsimp only
    rw [dite_eq_ite]

/-- What the end of a chain of re-exports tells about the chain. -/
inductive Arrives (document : Document) (reexports : List (ItemId × ResolvedPath)) :
    List ItemId → Destination → Prop
  | followed {before : List ItemId} {last : ItemId} {path : ResolvedPath} :
      (before ++ [last]).IsChain document.Exposes → reexports.lookup last = some path →
      Arrives document reexports (before ++ [last]) (.followed path)
  | outside {before : List ItemId} {last : ItemId} {summary : PathSummary} :
      (before ++ [last]).IsChain document.Exposes → document.item? last = none →
      document.summary? last = some summary →
      Arrives document reexports (before ++ [last]) (.outside summary)
  | declared {before : List ItemId} {last : ItemId} {item : Item} :
      (before ++ [last]).IsChain document.Exposes → document.item? last = some item →
      nextTarget? item = none →
      Arrives document reexports (before ++ [last]) (.declared last)
  | closed {before between : List ItemId} {start : ItemId} :
      (before ++ start :: between ++ [start]).IsChain document.Exposes → start ∉ before →
      Arrives document reexports (before ++ start :: between ++ [start]) .closed
  | missing {before : List ItemId} {last : ItemId} :
      (before ++ [last]).IsChain document.Exposes → document.item? last = none →
      document.summary? last = none →
      Arrives document reexports (before ++ [last]) .missing

theorem isChain_concat_exposes {before : List ItemId} {last target : ItemId}
    (linked : (before ++ [last]).IsChain document.Exposes)
    (exposes : document.Exposes last target) :
    (before ++ [last] ++ [target]).IsChain document.Exposes := by
  refine List.isChain_append.mpr ⟨linked, List.isChain_singleton target, ?_⟩
  intro source isLast other isFirst
  rw [List.getLast?_concat] at isLast
  cases isLast
  cases isFirst
  exact exposes

/-- Tracing a chain of re-exports keeps where it starts and says truly how it ends. -/
theorem trace_arrives {reexports : List (ItemId × ResolvedPath)} {chain before : List ItemId}
    {id : ItemId} (ends : chain = before ++ [id])
    (linked : (before ++ [id]).IsChain document.Exposes) :
    Arrives document reexports (trace document reexports chain id).1
        (trace document reexports chain id).2 ∧
      chain <+: (trace document reexports chain id).1 := by
  fun_induction trace document reexports chain id generalizing before with
  | case1 chain id path known =>
      subst ends
      exact ⟨.followed linked known, List.prefix_refl _⟩
  | case2 chain id _ absent summary known =>
      subst ends
      exact ⟨.outside linked absent known, List.prefix_refl _⟩
  | case3 chain id _ absent unknown =>
      subst ends
      exact ⟨.missing linked absent unknown, List.prefix_refl _⟩
  | case4 chain id _ item found final =>
      subst ends
      exact ⟨.declared linked found final, List.prefix_refl _⟩
  | case5 chain id _ item found target next passed =>
      subst ends
      have extended := isChain_concat_exposes linked ((exposes_iff_nextTarget? found).mpr next)
      obtain ⟨earlier, between, split, absent⟩ :=
        List.eq_append_cons_of_mem (List.contains_iff_mem.mp passed)
      refine ⟨?_, List.prefix_append _ _⟩
      rw [split] at extended ⊢
      exact .closed extended absent
  | case6 chain id _ item found target next _ induction =>
      subst ends
      have extended := isChain_concat_exposes linked ((exposes_iff_nextTarget? found).mpr next)
      obtain ⟨arrives, longer⟩ := induction rfl extended
      exact ⟨arrives, (List.prefix_append _ _).trans longer⟩

theorem trace_singleton_arrives (reexports : List (ItemId × ResolvedPath)) (id : ItemId) :
    Arrives document reexports (trace document reexports [id] id).1
        (trace document reexports [id] id).2 ∧
      [id] <+: (trace document reexports [id] id).1 :=
  @trace_arrives document reexports [id] [] id rfl (List.isChain_singleton id)

theorem leads_of_isChain {resolver : Resolver} {before : List ItemId} {last : ItemId}
    {path : ResolvedPath} (linked : (before ++ [last]).IsChain document.Exposes)
    (leads : Leads document resolver last path) :
    ∀ id ∈ before ++ [last], Leads document resolver id path := by
  induction before with
  | nil =>
      intro id member
      rw [List.nil_append, List.mem_singleton] at member
      subst member
      exact leads
  | cons first before induction =>
      have later := induction linked.tail
      intro id member
      rcases List.mem_cons.mp member with rfl | inside
      · cases before with
        | nil => exact .through (List.isChain_cons_cons.mp linked).1 leads
        | cons second before =>
            exact .through (List.isChain_cons_cons.mp linked).1 (later second (by simp))
      · exact later id inside

/-- What a resolver remembers of a re-export is where it leads. -/
theorem leads_of_remembered {resolver : Resolver}
    (reached : Advances document separator {} resolver) {id : ItemId} {path : ResolvedPath}
    (known : resolver.reexports.lookup id = some path) : Leads document resolver id path := by
  induction reached generalizing id path with
  | refl => cases known
  | @tail resolver next _ step induction =>
      have kept : ∀ {id path}, Leads document resolver id path → Leads document next id path :=
        Leads.advances (.single step)
      cases step with
      | settle => exact kept (induction known)
      | anchor => exact kept (induction known)
      | remember _ leads =>
          rcases lookup_rememberReexport known with old | ⟨rfl, rfl⟩
          · exact kept (induction old)
          · exact kept leads
      | close => exact kept (induction known)

/-- Remembering a chain is a sequence of steps if its members lead to the path. -/
theorem rememberChain_advances {resolver : Resolver} {chain : List ItemId}
    {path : ResolvedPath} (leads : ∀ id ∈ chain, Leads document resolver id path) :
    Advances document separator resolver (rememberChain document resolver chain path) := by
  unfold rememberChain
  induction chain generalizing resolver with
  | nil => exact .refl
  | cons first chain induction =>
      by_cases exposing : isReexport document first = true
      · rw [List.filter_cons_of_pos exposing, List.foldl_cons]
        have step : Advance document separator resolver
            (resolver.rememberReexport first path) :=
          .remember exposing (leads first List.mem_cons_self)
        refine .head step (induction ?_)
        intro id member
        exact (leads id (List.mem_cons_of_mem _ member)).advances (.single step)
      · rw [List.filter_cons_of_neg exposing]
        exact induction fun id member => leads id (List.mem_cons_of_mem _ member)

theorem run_follow (resolver : Resolver) (id : ItemId) :
    (follow document separator id).run resolver =
      match trace document resolver.reexports [id] id with
      | (chain, .followed path) => (.ok (.ok path), rememberChain document resolver chain path)
      | (chain, .outside summary) =>
          let path : ResolvedPath := { segments := summary.segments, isExternal := true }
          (.ok (.ok path), rememberChain document resolver chain path)
      | (chain, .declared target) =>
          match (location document separator target).run resolver with
          | (.error cause, next) => (.error cause, next)
          | (.ok path, next) => (.ok (.ok path), rememberChain document next chain path)
      | (chain, .closed) => (.ok (.error ⟨id, chain⟩), resolver)
      | (_, .missing) => (.error (.shape .missingKey), resolver) := by
  unfold follow
  rw [Query.run_get_bind]
  rcases trace document resolver.reexports [id] id with ⟨chain, destination⟩
  cases destination with
  | followed path => rfl
  | outside summary => rfl
  | declared target =>
      dsimp only
      rw [Query.run_bind]
      rcases (location document separator target).run resolver with ⟨cause | path, next⟩
      · rfl
      · rfl
  | closed => rfl
  | missing => rfl

theorem follow_advances {resolver : Resolver}
    (reached : Advances document separator {} resolver) (id : ItemId) :
    Advances document separator resolver ((follow document separator id).run resolver).2 := by
  obtain ⟨traced, _⟩ := @trace_singleton_arrives document resolver.reexports id
  rw [run_follow]
  generalize trace document resolver.reexports [id] id = result at traced
  obtain ⟨chain, destination⟩ := result
  dsimp only at traced
  cases traced with
  | followed linked known =>
      exact rememberChain_advances
        (leads_of_isChain linked (leads_of_remembered reached known))
  | outside linked absent summary =>
      exact rememberChain_advances (leads_of_isChain linked (.outside absent summary))
  | @declared before last item linked found final =>
      have steps : Advances document separator resolver
          ((location document separator last).run resolver).2 := location_advances resolver last
      dsimp only
      generalize located : (location document separator last).run resolver = result at steps
      obtain ⟨cause | path, next⟩ := result
      · exact steps
      · obtain ⟨other, placement, otherFound, placed, rfl⟩ := of_location_eq_ok located
        cases found.symm.trans otherFound
        exact steps.trans (rememberChain_advances
          (leads_of_isChain linked (.declared found final placed)))
  | closed => exact .refl
  | missing => exact .refl

/-- A chain that runs into a cycle is returned as it is, and the state is kept. -/
theorem of_follow_eq_error {resolver next : Resolver} {id : ItemId} {cycle : Cycle}
    (closes : (follow document separator id).run resolver = (.ok (.error cycle), next)) :
    next = resolver ∧ ∃ before start between,
      cycle = ⟨id, before ++ start :: between ++ [start]⟩ ∧ start ∉ before ∧
        (before ++ start :: between ++ [start]).IsChain document.Exposes ∧
        [id] <+: before ++ start :: between ++ [start] := by
  obtain ⟨arrives, longer⟩ := @trace_singleton_arrives document resolver.reexports id
  rw [run_follow] at closes
  generalize trace document resolver.reexports [id] id = result at arrives longer closes
  obtain ⟨chain, destination⟩ := result
  dsimp only at arrives longer closes
  cases arrives with
  | followed => cases closes
  | outside => cases closes
  | declared =>
      dsimp only at closes
      split at closes
      · cases closes
      · cases closes
  | @closed before between start linked absent =>
      cases closes
      exact ⟨rfl, before, start, between, rfl, absent, linked, longer⟩
  | missing => cases closes

/-! ### Resolving -/

theorem run_resolve (resolver : Resolver) (id : ItemId) :
    (resolve document separator id).run resolver =
      match (location document separator id).run resolver with
      | (.error cause, next) => (.error cause, next)
      | (.ok path, next) =>
          if isReexport document id then
            match (follow document separator id).run next with
            | (.error cause, last) => (.error cause, last)
            | (.ok (.error cycle), last) =>
                (.ok { path with isReexport := true }, last.report cycle)
            | (.ok (.ok target), last) =>
                (.ok { target with
                  isReexport := true, parent := path.parent, module := path.module }, last)
          else (.ok path, next) := by
  unfold resolve
  rw [Query.run_bind]
  rcases (location document separator id).run resolver with ⟨cause | path, next⟩
  · rfl
  · dsimp only
    split
    · rw [Query.run_bind]
      rcases (follow document separator id).run next with ⟨cause | ⟨cycle | target⟩, last⟩
      · rfl
      · rfl
      · rfl
    · rfl

theorem resolve_advances {resolver : Resolver}
    (reached : Advances document separator {} resolver) (id : ItemId) :
    Advances document separator resolver ((resolve document separator id).run resolver).2 := by
  have located : Advances document separator resolver
      ((location document separator id).run resolver).2 := location_advances resolver id
  rw [run_resolve]
  generalize (location document separator id).run resolver = result at located
  obtain ⟨cause | path, next⟩ := result
  · exact located
  · dsimp only at located ⊢
    split
    · have followed := follow_advances (reached.trans located) id
      generalize closes : (follow document separator id).run next = result at followed
      obtain ⟨cause | ⟨cycle | target⟩, last⟩ := result
      · exact located.trans followed
      · obtain ⟨rfl, before, start, between, rfl, absent, linked, _⟩ := of_follow_eq_error closes
        exact located.tail (.close linked absent)
      · exact located.trans followed
    · exact located

theorem run_resolveAll (resolver : Resolver) :
    (resolveAll document separator).run resolver =
      match document.sortedIds with
      | .error cause => (.error (.invalid (.integer cause)), resolver)
      | .ok ids =>
          (ids.mapM fun id => do return (id, ← resolve document separator id) :
            Query (List (ItemId × ResolvedPath))).run resolver := by
  unfold resolveAll
  rw [Query.run_bind]
  cases document.sortedIds with
  | error cause => rfl
  | ok ids => rfl

end Resolver

namespace Document

variable {document : Document} {separator : String} {config : Value} {resolution : Resolution}

theorem resolve_eq (found : pathSeparator config = .ok separator) :
    document.resolve config =
      match (Resolver.resolveAll document separator).run {} with
      | (.error cause, _) => .error cause
      | (.ok paths, last) => .ok ⟨paths, last.reports, separator⟩ := by
  have lifted : (liftM (Except.ok separator : Except ShapeError String) : Except Failure String) =
      .ok separator := rfl
  unfold Document.resolve
  rw [found, lifted]
  dsimp only [bind, Except.bind]
  rcases (Resolver.resolveAll document separator).run {} with ⟨cause | paths, last⟩
  · rfl
  · rfl

theorem resolve_eq_ok_iff (found : pathSeparator config = .ok separator) :
    document.resolve config = .ok resolution ↔ ∃ last,
      (Resolver.resolveAll document separator).run {} = (.ok resolution.paths, last) ∧
        resolution = ⟨resolution.paths, last.reports, separator⟩ := by
  rw [resolve_eq found]
  constructor
  · intro resolved
    split at resolved
    · cases resolved
    · rename_i paths last ran
      cases resolved
      exact ⟨last, ran, rfl⟩
  · rintro ⟨last, ran, whole⟩
    rw [ran, whole]

end Document

end ApiCensus
