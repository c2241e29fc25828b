import ApiCensus.Proofs.Questions
import ApiCensus.Proofs.Settling

/-!
# Runs with two separators

The separator has a say in one thing only: which of several containers with equally long stems an
item goes below.  Runs with two separators therefore stay in step.  They place the same items in
the same order, at the same depth, they follow the same chains of re-exports, and they report the
same cycles; if one of them fails, so does the other, for the same cause.
-/

namespace ApiCensus

/-- The placements are at the same depth, and both below a container or both not. -/
structure Placement.Parallel (left right : Placement) : Prop where
  depth : left.base.length = right.base.length
  contained : left.parent.isSome = right.parent.isSome

/-- The paths have as many segments and are of the same sort. -/
structure ResolvedPath.Parallel (left right : ResolvedPath) : Prop where
  depth : left.segments.length = right.segments.length
  isReexport : left.isReexport = right.isReexport
  isExternal : left.isExternal = right.isExternal
  contained : left.parent.isSome = right.parent.isSome

theorem ResolvedPath.Parallel.refl (path : ResolvedPath) : Parallel path path :=
  ⟨rfl, rfl, rfl, rfl⟩

namespace Resolver

/-- The resolvers have placed and remembered the same identifiers in parallel, and they have
reported the same cycles. -/
structure Parallel (left right : Resolver) : Prop where
  bases : ∀ id, Option.Rel (·.length = ·.length) (left.base? id) (right.base? id)
  placements : ∀ id, Option.Rel Placement.Parallel (left.placement? id) (right.placement? id)
  reexports : ∀ id,
    Option.Rel ResolvedPath.Parallel (left.reexports.lookup id) (right.reexports.lookup id)
  reports : left.reports = right.reports

/-- Two questions succeed with related answers or fail for the same cause, and leave parallel
resolvers. -/
inductive InStep {α : Type} (related : α → α → Prop) :
    Except Failure α × Resolver → Except Failure α × Resolver → Prop
  | ok {value other : α} {left right : Resolver} :
      related value other → Parallel left right → InStep related (.ok value, left) (.ok other, right)
  | error {left right : Resolver} (cause : Failure) :
      Parallel left right → InStep related (.error cause, left) (.error cause, right)

variable {document : Document} {separator other : String} {left right : Resolver}

theorem isSome_of_rel {α : Type} {related : α → α → Prop} {first second : Option α}
    (rel : Option.Rel related first second) : first.isSome = second.isSome := by
  cases rel <;> rfl

namespace Parallel

theorem isPlaced (parallel : Parallel left right) : left.isPlaced = right.isPlaced := by
  funext id
  exact isSome_of_rel (parallel.bases id)

theorem place (parallel : Parallel left right) {placement otherPlacement : Placement}
    (same : placement.Parallel otherPlacement) (id : ItemId) :
    Parallel (left.place id placement) (right.place id otherPlacement) where
  bases other := by
    rw [base?_place, base?_place]
    split
    · exact .some same.depth
    · exact parallel.bases other
  placements other := by
    rw [placement?_place, placement?_place]
    split
    · exact .some same
    · exact parallel.placements other
  reexports := parallel.reexports
  reports := parallel.reports

theorem report (parallel : Parallel left right) (cycle : Cycle) :
    Parallel (left.report cycle) (right.report cycle) where
  bases := parallel.bases
  placements := parallel.placements
  reexports := parallel.reexports
  reports := by
    unfold Resolver.report
    rw [parallel.reports]

theorem rememberReexport (parallel : Parallel left right) {path otherPath : ResolvedPath}
    (same : path.Parallel otherPath) (id : ItemId) :
    Parallel (left.rememberReexport id path) (right.rememberReexport id otherPath) := by
  unfold Resolver.rememberReexport
  rw [isSome_of_rel (parallel.reexports id)]
  split
  · exact parallel
  · refine ⟨parallel.bases, parallel.placements, ?_, parallel.reports⟩
    intro other
    rw [List.lookup_cons, List.lookup_cons]
    split
    · exact .some same
    · exact parallel.reexports other

theorem rememberChain (parallel : Parallel left right) {path otherPath : ResolvedPath}
    (same : path.Parallel otherPath) (chain : List ItemId) :
    Parallel (rememberChain document left chain path)
      (rememberChain document right chain otherPath) := by
  unfold Resolver.rememberChain
  induction chain.filter (isReexport document) generalizing left right with
  | nil => exact parallel
  | cons id ids induction => exact induction (parallel.rememberReexport same id)

end Parallel

/-! ### Settling -/

theorem stem_parallel (parallel : Parallel left right) (id : ItemId) :
    Outcome.Agree (fun segments others : List String => segments.length = others.length)
      (stem document left id) (stem document right id) := by
  have placed := parallel.bases id
  unfold stem
  cases document.item? id with
  | none =>
      cases document.summary? id with
      | none => exact .error _
      | some summary => exact .ok rfl
  | some item =>
      generalize left.base? id = first, right.base? id = second at placed
      cases placed with
      | none => exact .error _
      | some same => exact .ok (by simp [same])

/-- The candidates are the same container with stems of the same length. -/
structure Candidate.Parallel (left right : Candidate) : Prop where
  id : left.id = right.id
  depth : left.stem.length = right.stem.length

theorem candidates_parallel (parallel : Parallel left right) (item : Item) :
    Outcome.Agree (List.Forall₂ Candidate.Parallel) (candidates document left item)
      (candidates document right item) := by
  have each : List.Forall₂ Eq (item.parents.filter document.isKnown)
      (item.parents.filter document.isKnown) := List.forall₂_refl _
  apply Outcome.Agree.mapM each
  rintro id _ rfl
  apply (stem_parallel parallel id).bind
  intro segments others depth
  exact .ok ⟨rfl, depth⟩

theorem admissible_parallel {found others : List Candidate}
    (related : List.Forall₂ Candidate.Parallel found others) (id : ItemId) :
    List.Forall₂ Candidate.Parallel (admissible document id found)
      (admissible document id others) := by
  have owners : List.Forall₂ Candidate.Parallel
      (found.filter fun candidate => implementsOn document candidate.id id)
      (others.filter fun candidate => implementsOn document candidate.id id) := by
    apply List.rel_filter _ related
    intro candidate another same
    simp [same.id]
  unfold admissible
  dsimp only
  generalize found.filter _ = first, others.filter _ = second at owners
  cases owners with
  | nil => exact related
  | cons same rest => exact .cons same rest

/-- The ranked candidates are at the same depth. -/
structure RankedParallel (pair otherPair : Rank × Candidate) : Prop where
  rank : pair.1.length = pair.2.stem.length
  otherRank : otherPair.1.length = otherPair.2.stem.length
  depth : pair.1.length = otherPair.1.length

theorem rank_parallel {candidate another : Candidate} (same : candidate.Parallel another) :
    Outcome.Agree RankedParallel
      (do return (← candidate.rank separator, candidate) : Except Failure (Rank × Candidate))
      (do return (← another.rank other, another) : Except Failure (Rank × Candidate)) := by
  unfold Candidate.rank
  rw [same.id]
  cases ItemId.key another.id with
  | error cause => exact .error _
  | ok key => exact .ok ⟨rfl, rfl, same.depth⟩

theorem Rank.length_le_of_lt {lower upper : Rank} (below : lower.lt upper = true) :
    lower.length ≤ upper.length := by
  simp only [Rank.lt, Bool.or_eq_true, Bool.and_eq_true, decide_eq_true_eq, beq_iff_eq] at below
  rcases below with shorter | ⟨same, _⟩
  · exact Nat.le_of_lt shorter
  · exact Nat.le_of_eq same

theorem Rank.length_le_of_not_lt {lower upper : Rank} (above : ¬ lower.lt upper = true) :
    upper.length ≤ lower.length := by
  simp only [Rank.lt, Bool.or_eq_true, decide_eq_true_eq, not_or, Nat.not_lt] at above
  exact above.1

/-- Whichever of two ranked candidates is taken, it is not the longer one. -/
theorem length_lesser (best next : Rank × Candidate) :
    (if next.1.lt best.1 then next else best).1.length = min next.1.length best.1.length := by
  split
  · rename_i below
    rw [Nat.min_eq_left (Rank.length_le_of_lt below)]
  · rename_i above
    rw [Nat.min_eq_right (Rank.length_le_of_not_lt above)]

theorem length_leastFrom {best otherBest : Rank × Candidate}
    {rest others : List (Rank × Candidate)} (first : RankedParallel best otherBest)
    (following : List.Forall₂ RankedParallel rest others) :
    (leastFrom best rest).stem.length = (leastFrom otherBest others).stem.length := by
  induction following generalizing best otherBest with
  | nil => exact first.rank.symm.trans (first.depth.trans first.otherRank)
  | cons same _ induction =>
      apply induction
      constructor
      · split
        · exact same.rank
        · exact first.rank
      · split
        · exact same.otherRank
        · exact first.otherRank
      · rw [length_lesser, length_lesser, same.depth, first.depth]

/-- An item is settled at the same depth with both separators. -/
theorem settle_parallel (parallel : Parallel left right) (item : Item) :
    Outcome.Agree Placement.Parallel (settle document separator left item)
      (settle document other right item) := by
  apply (candidates_parallel parallel item).bind
  intro found others related
  apply (Outcome.Agree.mapM (admissible_parallel related item.id)
    fun candidate another same => rank_parallel same).bind
  intro ranked otherRanked pairs
  cases pairs with
  | nil => exact .ok ⟨rfl, rfl⟩
  | cons first rest => exact .ok ⟨length_leastFrom first rest, rfl⟩

/-! ### Climbing -/

theorem climb_of_placed {resolver : Resolver} {id : ItemId} {below : List ItemId}
    (placed : resolver.isPlaced id = true) :
    climb document separator resolver (id :: below) = climb document separator resolver below := by
  rw [climb, dif_pos placed]

theorem pending?_parallel (parallel : Parallel left right) (item : Item) :
    pending? document left item = pending? document right item := by
  unfold pending?
  rw [parallel.isPlaced]

theorem climb_inStep (parallel : Parallel left right) (stack : List ItemId) :
    InStep Eq (climb document separator left stack) (climb document other right stack) := by
  -- Which branch a round takes depends on which items are placed, not on where they are.
  fun_induction climb document separator left stack generalizing right with
  | case1 left =>
      rw [climb]
      exact .ok rfl parallel
  | case2 left id below placed induction =>
      rw [parallel.isPlaced] at placed
      rw [climb_of_placed placed]
      exact induction parallel
  | case3 left id below unplaced absent =>
      rw [parallel.isPlaced] at unplaced
      rw [climb_of_absent unplaced absent]
      exact .error _ parallel
  | case4 left id below unplaced item found next pending on induction =>
      rw [parallel.isPlaced] at unplaced
      rw [pending?_parallel parallel] at pending
      rw [climb_of_pending unplaced found pending, if_pos on]
      exact induction ((parallel.report _).place ⟨rfl, rfl⟩ next)
  | case5 left id below unplaced item found next pending off induction =>
      rw [parallel.isPlaced] at unplaced
      rw [pending?_parallel parallel] at pending
      rw [climb_of_pending unplaced found pending, if_neg off]
      exact induction parallel
  | case6 left id below unplaced item found ready cause failed =>
      have settled := @settle_parallel document separator other _ _ parallel item
      rw [parallel.isPlaced] at unplaced
      rw [pending?_parallel parallel] at ready
      rw [failed] at settled
      generalize otherFailed : settle document other right item = outcome at settled
      cases settled with
      | error =>
          rw [climb_of_unsettled unplaced found ready otherFailed]
          exact .error cause parallel
  | case7 left id below unplaced item found ready placement settledOk induction =>
      have settled := @settle_parallel document separator other _ _ parallel item
      rw [parallel.isPlaced] at unplaced
      rw [pending?_parallel parallel] at ready
      obtain ⟨otherPlacement, otherOk, same⟩ := settled.exists_ok settledOk
      rw [climb_of_settled unplaced found ready otherOk]
      exact induction (parallel.place same id)

/-! ### Questions -/

theorem location_inStep (parallel : Parallel left right) (id : ItemId) :
    InStep ResolvedPath.Parallel ((location document separator id).run left)
      ((location document other id).run right) := by
  have climbed := @climb_inStep document separator other _ _ parallel [id]
  rw [run_location, run_location]
  generalize climb document separator left [id] = first, climb document other right [id] = second
    at climbed
  cases climbed with
  | error cause climbedParallel => exact .error cause climbedParallel
  | @ok _ _ next otherNext _ climbedParallel =>
      have placed := climbedParallel.placements id
      dsimp only
      generalize next.placement? id = placement, otherNext.placement? id = otherPlacement at placed
      cases document.item? id with
      | none => exact .error _ climbedParallel
      | some item =>
          cases placed with
          | none => exact .error _ climbedParallel
          | some same =>
              refine .ok ⟨?_, rfl, rfl, same.contained⟩ climbedParallel
              simp [declaredPath, same.depth]

/-- Both chains of re-exports end in the same way. -/
inductive Destination.Parallel : Destination → Destination → Prop
  | followed {path otherPath : ResolvedPath} :
      path.Parallel otherPath → Parallel (.followed path) (.followed otherPath)
  | outside (summary : PathSummary) : Parallel (.outside summary) (.outside summary)
  | declared (id : ItemId) : Parallel (.declared id) (.declared id)
  | closed : Parallel .closed .closed
  | missing : Parallel .missing .missing

theorem trace_parallel (parallel : Parallel left right) (chain : List ItemId) (id : ItemId) :
    (trace document left.reexports chain id).1 = (trace document right.reexports chain id).1 ∧
      Destination.Parallel (trace document left.reexports chain id).2
        (trace document right.reexports chain id).2 := by
  have unknown : ∀ {id}, left.reexports.lookup id = none → right.reexports.lookup id = none := by
    intro id absent
    have same := isSome_of_rel (parallel.reexports id)
    rw [absent] at same
    simpa using same.symm
  fun_induction trace document left.reexports chain id with
  | case1 chain id path known =>
      have related := parallel.reexports id
      rw [known] at related
      generalize otherKnown : right.reexports.lookup id = found at related
      cases related with
      | some same =>
          rw [trace, otherKnown]
          exact ⟨rfl, .followed same⟩
  | case2 chain id absentHere absent summary outside =>
      rw [trace_of_absent (unknown absentHere) absent, outside]
      exact ⟨rfl, .outside summary⟩
  | case3 chain id absentHere absent missing =>
      rw [trace_of_absent (unknown absentHere) absent, missing]
      exact ⟨rfl, .missing⟩
  | case4 chain id absentHere item found final =>
      rw [trace_of_declared (unknown absentHere) found final]
      exact ⟨rfl, .declared id⟩
  | case5 chain id absentHere item found target exposed passed =>
      rw [trace_of_target (unknown absentHere) found exposed, if_pos passed]
      exact ⟨rfl, .closed⟩
  | case6 chain id absentHere item found target exposed fresh induction =>
      rw [trace_of_target (unknown absentHere) found exposed, if_neg fresh]
      exact induction

/-- Re-exports lead to parallel paths or run into the same cycle. -/
theorem follow_inStep (parallel : Parallel left right) (id : ItemId) :
    InStep (Outcome.Agree ResolvedPath.Parallel) ((follow document separator id).run left)
      ((follow document other id).run right) := by
  obtain ⟨chains, ends⟩ := @trace_parallel document _ _ parallel [id] id
  rw [run_follow, run_follow]
  generalize trace document left.reexports [id] id = first,
    trace document right.reexports [id] id = second at chains ends
  obtain ⟨chain, destination⟩ := first
  obtain ⟨_, otherDestination⟩ := second
  dsimp only at chains ends
  subst chains
  cases ends with
  | followed same => exact .ok (.ok same) (parallel.rememberChain same chain)
  | outside summary => exact .ok (.ok (.refl _)) (parallel.rememberChain (.refl _) chain)
  | declared target =>
      have located := @location_inStep document separator other _ _ parallel target
      dsimp only
      generalize (location document separator target).run left = first,
        (location document other target).run right = second at located
      cases located with
      | error cause located => exact .error cause located
      | ok same located => exact .ok (.ok same) (located.rememberChain same chain)
  | closed => exact .ok (.error _) parallel
  | missing => exact .error _ parallel

theorem resolve_inStep (parallel : Parallel left right) (id : ItemId) :
    InStep ResolvedPath.Parallel ((resolve document separator id).run left)
      ((resolve document other id).run right) := by
  have located := @location_inStep document separator other _ _ parallel id
  rw [run_resolve, run_resolve]
  generalize (location document separator id).run left = first,
    (location document other id).run right = second at located
  cases located with
  | error cause located => exact .error cause located
  | @ok _ _ next otherNext same located =>
      dsimp only
      split
      · have followed := @follow_inStep document separator other _ _ located id
        generalize (follow document separator id).run next = first,
          (follow document other id).run otherNext = second at followed
        cases followed with
        | error cause followed => exact .error cause followed
        | ok targets followed =>
            cases targets with
            | error cycle =>
                exact .ok ⟨same.depth, rfl, same.isExternal, same.contained⟩
                  (followed.report cycle)
            | ok target =>
                exact .ok ⟨target.depth, rfl, target.isExternal, same.contained⟩ followed
      · exact .ok same located

/-- Both runs give a path to the same identifier, and the paths are parallel. -/
structure PairParallel (pair otherPair : ItemId × ResolvedPath) : Prop where
  id : pair.1 = otherPair.1
  path : pair.2.Parallel otherPair.2

theorem resolveList_inStep (parallel : Parallel left right) (ids : List ItemId) :
    InStep (List.Forall₂ PairParallel) ((resolveList document separator ids).run left)
      ((resolveList document other ids).run right) := by
  induction ids generalizing left right with
  | nil => exact .ok .nil parallel
  | cons id ids induction =>
      have resolved := @resolve_inStep document separator other _ _ parallel id
      rw [run_resolveList_cons, run_resolveList_cons]
      generalize (resolve document separator id).run left = first,
        (resolve document other id).run right = second at resolved
      cases resolved with
      | error cause resolved => exact .error cause resolved
      | @ok _ _ next otherNext same resolved =>
          have rest := induction resolved
          dsimp only
          generalize (resolveList document separator ids).run next = first,
            (resolveList document other ids).run otherNext = second at rest
          cases rest with
          | error cause rest => exact .error cause rest
          | ok others rest => exact .ok (.cons ⟨rfl, same⟩ others) rest

/-- Resolving all items with two separators stays in step. -/
theorem resolveAll_inStep (document : Document) (separator other : String) :
    InStep (List.Forall₂ PairParallel) ((resolveAll document separator).run {})
      ((resolveAll document other).run {}) := by
  have parallel : Parallel {} {} := ⟨fun _ => .none, fun _ => .none, fun _ => .none, rfl⟩
  rw [run_resolveAll, run_resolveAll]
  cases document.sortedIds with
  | error cause => exact .error _ parallel
  | ok ids => exact resolveList_inStep parallel ids

end Resolver

end ApiCensus
