import ApiCensus.Proofs.Questions
import ApiCensus.Proofs.Settling

/-!
# Every question is answered

In a loaded document whose containers can be ordered no question about an item of
the index fails, whatever cycles the containers and re-exports have and whatever has
been asked before.  No table lacks a key: a container is placed before
its members are settled, and every reference leads to an item or to a path summary.
-/

namespace ApiCensus.Resolver

variable {document : Document} {separator : String} {resolver : Resolver}

/-- A climb from items of the index succeeds if all containers on the way can be
ordered. Each round meets only items of the index, for a pending container is one. -/
theorem exists_climb_eq_ok {stack : List ItemId}
    (inside : ∀ id ∈ stack, id ∈ document.ids ∧ document.OrdersAbove id) :
    ∃ next, climb document separator resolver stack = (.ok (), next) := by
  fun_induction climb document separator resolver stack with
  | case1 resolver => exact ⟨resolver, rfl⟩
  | case2 resolver id below _ induction =>
      exact induction fun other member => inside other (List.mem_cons_of_mem _ member)
  | case3 resolver id below _ absent =>
      obtain ⟨item, found⟩ := Document.exists_item_of_mem_ids (inside id List.mem_cons_self).1
      rw [absent] at found
      cases found
  | case4 resolver id below _ item found next pending _ induction => exact induction inside
  | case5 resolver id below _ item found next pending _ induction =>
      have contained := containedIn_of_pending? found pending
      apply induction
      intro other member
      rcases List.mem_cons.mp member with rfl | lower
      · exact ⟨contained.mem_ids, (inside id List.mem_cons_self).2.above contained⟩
      · exact inside other lower
  | case6 resolver id below _ item found pending cause failed =>
      obtain ⟨placement, settled⟩ :
          ∃ placement, settle document separator resolver item = .ok placement :=
        exists_settle_eq_ok ((inside id List.mem_cons_self).2 id .refl item found) pending
      rw [failed] at settled
      cases settled
  | case7 resolver id below _ item found pending placement _ induction =>
      exact induction fun other member => inside other (List.mem_cons_of_mem _ member)

theorem exists_location_of_ordersAbove
    (reached : Advances document separator {} resolver) {id : ItemId}
    (inside : id ∈ document.ids) (ordered : document.OrdersAbove id) :
    ∃ path next, (location document separator id).run resolver = (.ok path, next) := by
  obtain ⟨next, climbed⟩ : ∃ next, climb document separator resolver [id] = (.ok (), next) :=
    exists_climb_eq_ok (List.forall_mem_singleton.mpr ⟨inside, ordered⟩)
  have placed : next.isPlaced id = true :=
    isPlaced_of_climb_eq_ok climbed (List.isChain_singleton id) List.mem_cons_self
  have steps : Advances document separator resolver
      (climb document separator resolver [id]).2 := climb_advances (List.isChain_singleton id)
  rw [climbed] at steps
  obtain ⟨placement, placementFound⟩ := Advances.isPlaced_iff (reached.trans steps) |>.mp placed
  obtain ⟨item, found⟩ := Document.exists_item_of_mem_ids inside
  refine ⟨declaredPath item placement, next, ?_⟩
  rw [run_location, climbed]
  dsimp only
  rw [found, placementFound]

theorem exists_location_of_ordered (ordered : document.OrdersContainers)
    (reached : Advances document separator {} resolver) {id : ItemId} (inside : id ∈ document.ids) :
    ∃ path next, (location document separator id).run resolver = (.ok path, next) :=
  exists_location_of_ordersAbove reached inside (ordered.ordersAbove id)

/-- A chain of re-exports from a known identifier ends at a known identifier. -/
theorem isKnown_of_isChain (coherent : document.Coherent) {before : List ItemId}
    {last id : ItemId} (linked : (before ++ [last]).IsChain document.Exposes)
    (known : document.isKnown id = true) (starts : [id] <+: before ++ [last]) :
    document.isKnown last = true := by
  cases before with
  | nil =>
      obtain ⟨rest, same⟩ := starts
      cases same
      exact known
  | cons first before =>
      rw [← List.dropLast_append_getLast (List.cons_ne_nil first before), List.append_assoc,
        List.singleton_append] at linked
      have exposes := (List.isChain_cons_cons.mp (List.isChain_append.mp linked).2.1).1
      obtain ⟨item, found, _, target⟩ := exposes
      exact coherent.targetsKnown item (Document.mem_of_item?_eq_some found).1 last target

theorem exists_follow_of_ordered (coherent : document.Coherent)
    (ordered : document.OrdersContainers) (reached : Advances document separator {} resolver)
    {id : ItemId} (inside : id ∈ document.ids) :
    ∃ result next, (follow document separator id).run resolver = (.ok result, next) := by
  have known : document.isKnown id = true := Document.isKnown_iff.mpr (.inl inside)
  obtain ⟨arrives, starts⟩ := @trace_singleton_arrives document resolver.reexports id
  rw [run_follow]
  generalize trace document resolver.reexports [id] id = traced at arrives starts
  obtain ⟨chain, destination⟩ := traced
  dsimp only at arrives starts
  cases arrives with
  | followed => exact ⟨_, _, rfl⟩
  | outside => exact ⟨_, _, rfl⟩
  | @declared before last item linked found final =>
      have lastInside : last ∈ document.ids :=
        Document.isLocal_iff_mem_ids.mp (Document.isLocal_of_item?_eq_some found)
      obtain ⟨path, next, located⟩ :
          ∃ path next, (location document separator last).run resolver = (.ok path, next) :=
        exists_location_of_ordered ordered reached lastInside
      dsimp only
      rw [located]
      exact ⟨_, _, rfl⟩
  | closed => exact ⟨_, _, rfl⟩
  | @missing before last linked absent unknown =>
      have lastKnown := isKnown_of_isChain coherent linked known starts
      simp [Document.isKnown, Document.isLocal, absent, unknown] at lastKnown

theorem exists_resolve_of_ordered (coherent : document.Coherent)
    (ordered : document.OrdersContainers) (reached : Advances document separator {} resolver)
    {id : ItemId} (inside : id ∈ document.ids) :
    ∃ path next, (resolve document separator id).run resolver = (.ok path, next) := by
  obtain ⟨path, next, located⟩ :
      ∃ path next, (location document separator id).run resolver = (.ok path, next) :=
    exists_location_of_ordered ordered reached inside
  have steps := @location_advances document separator resolver id
  rw [located] at steps
  obtain ⟨result, last, followed⟩ :
      ∃ result last, (follow document separator id).run next = (.ok result, last) :=
    exists_follow_of_ordered coherent ordered (reached.trans steps) inside
  rw [run_resolve, located]
  dsimp only
  split
  · rw [followed]
    cases result with
    | error cycle => exact ⟨_, _, rfl⟩
    | ok target => exact ⟨_, _, rfl⟩
  · exact ⟨_, _, rfl⟩

theorem exists_resolveList_of_ordered (coherent : document.Coherent)
    (ordered : document.OrdersContainers) (reached : Advances document separator {} resolver)
    {ids : List ItemId} (inside : ∀ id ∈ ids, id ∈ document.ids) :
    ∃ paths next, (resolveList document separator ids).run resolver = (.ok paths, next) := by
  induction ids generalizing resolver with
  | nil => exact ⟨[], _, rfl⟩
  | cons id ids induction =>
      obtain ⟨path, middle, resolved⟩ :
          ∃ path middle, (resolve document separator id).run resolver = (.ok path, middle) :=
        exists_resolve_of_ordered coherent ordered reached (inside id List.mem_cons_self)
      have steps := resolve_advances reached id
      rw [resolved] at steps
      obtain ⟨paths, last, rest⟩ := induction (reached.trans steps) fun other member =>
        inside other (List.mem_cons_of_mem _ member)
      refine ⟨(id, path) :: paths, last, ?_⟩
      rw [run_resolveList_cons, resolved]
      dsimp only
      rw [rest]

/-- All items are resolved, each once and in the order of identifiers. -/
theorem exists_resolveAll_of_ordered (coherent : document.Coherent)
    (ordered : document.OrdersContainers) (reached : Advances document separator {} resolver) :
    ∃ ids paths next, document.sortedIds = .ok ids ∧
      (resolveAll document separator).run resolver = (.ok paths, next) ∧
      Resolves document separator resolver ids paths next := by
  obtain ⟨ids, sorted⟩ := ItemId.exists_sort_eq_ok coherent.keyed
  have inside : ∀ id ∈ ids, id ∈ document.ids :=
    fun id member => (ItemId.sort_perm sorted).mem_iff.mp member
  obtain ⟨paths, next, resolved⟩ :
      ∃ paths next, (resolveList document separator ids).run resolver = (.ok paths, next) :=
    exists_resolveList_of_ordered coherent ordered reached inside
  refine ⟨ids, paths, next, sorted, ?_, resolves_of_run_eq_ok resolved⟩
  have unfolded := @run_resolveAll document separator resolver
  rw [unfolded, show document.sortedIds = .ok ids from sorted]
  exact resolved

/-! ### Documents all of whose identifiers can be ordered -/

theorem exists_location_eq_ok (coherent : document.Coherent)
    (keyed : ∀ entry ∈ document.paths, entry.1.HasKey)
    (reached : Advances document separator {} resolver) {id : ItemId}
    (inside : id ∈ document.ids) :
    ∃ path next, (location document separator id).run resolver = (.ok path, next) :=
  exists_location_of_ordered (ordersContainers_of_keyed coherent keyed) reached inside

theorem exists_resolve_eq_ok (coherent : document.Coherent)
    (keyed : ∀ entry ∈ document.paths, entry.1.HasKey)
    (reached : Advances document separator {} resolver) {id : ItemId}
    (inside : id ∈ document.ids) :
    ∃ path next, (resolve document separator id).run resolver = (.ok path, next) :=
  exists_resolve_of_ordered coherent (ordersContainers_of_keyed coherent keyed) reached inside

theorem exists_resolveAll_eq_ok (coherent : document.Coherent)
    (keyed : ∀ entry ∈ document.paths, entry.1.HasKey)
    (reached : Advances document separator {} resolver) :
    ∃ ids paths next, document.sortedIds = .ok ids ∧
      (resolveAll document separator).run resolver = (.ok paths, next) ∧
      Resolves document separator resolver ids paths next :=
  exists_resolveAll_of_ordered coherent (ordersContainers_of_keyed coherent keyed) reached

/-! ### Histories of questions -/

/-- An answer that fits a question: a path for one item, or one path for each item
of the index and for no other identifier. -/
def Answered (document : Document) : Question → Except Failure Answer → Prop
  | .location _, .ok (.path _) => True
  | .resolve _, .ok (.path _) => True
  | .all, .ok (.paths paths) =>
      (paths.map (·.1)).Perm document.ids ∧ (paths.map (·.1)).Nodup
  | _, _ => False

theorem answered_ask (coherent : document.Coherent)
    (keyed : ∀ entry ∈ document.paths, entry.1.HasKey)
    (reached : Advances document separator {} resolver)
    {question : Question} (inside : ∀ id ∈ question.id?, id ∈ document.ids) :
    Answered document question ((ask document separator question).run resolver).1 := by
  cases question with
  | location id =>
      obtain ⟨path, next, located⟩ :
          ∃ path next, (location document separator id).run resolver = (.ok path, next) :=
        exists_location_eq_ok coherent keyed reached (inside id rfl)
      rw [ask, Query.run_map, located]
      trivial
  | resolve id =>
      obtain ⟨path, next, resolved⟩ :
          ∃ path next, (resolve document separator id).run resolver = (.ok path, next) :=
        exists_resolve_eq_ok coherent keyed reached (inside id rfl)
      rw [ask, Query.run_map, resolved]
      trivial
  | all =>
      obtain ⟨ids, paths, next, sorted, resolvedAll, resolves⟩ :=
        exists_resolveAll_eq_ok coherent keyed reached
      rw [ask, Query.run_map, resolvedAll]
      change (paths.map (·.1)).Perm document.ids ∧ (paths.map (·.1)).Nodup
      have permuted := ItemId.sort_perm sorted
      rw [resolves.paths_ids]
      exact ⟨permuted, permuted.nodup_iff.mpr coherent.distinct⟩

/-- In a coherent document with keys every question of a history is answered, from
any state that earlier questions lead to. -/
theorem transcript_answered (coherent : document.Coherent)
    (keyed : ∀ entry ∈ document.paths, entry.1.HasKey)
    (reached : Advances document separator {} resolver)
    {questions : List Question}
    (inside : ∀ question ∈ questions, ∀ id ∈ question.id?, id ∈ document.ids) :
    List.Forall₂ (Answered document) questions
      (transcript document separator resolver questions).1 := by
  induction questions generalizing resolver with
  | nil => exact .nil
  | cons question questions induction =>
      constructor
      · exact answered_ask coherent keyed reached (inside question List.mem_cons_self)
      · exact induction (reached.trans (ask_advances reached question)) fun other member =>
          inside other (List.mem_cons_of_mem _ member)

/-- In a loaded document whose path summaries have keys every question about items
of the index is answered, whatever was asked before, and resolving all gives one
path for each item and for no other identifier. -/
theorem every_question_answered {source : Index.Source}
    (loaded : Index.load source = .ok document)
    (keyed : ∀ entry ∈ document.paths, entry.1.HasKey) (separator : String)
    (questions : List Question)
    (inside : ∀ question ∈ questions, ∀ id ∈ question.id?, id ∈ document.ids) :
    List.Forall₂ (Answered document) questions
      (transcript document separator {} questions).1 :=
  transcript_answered (Index.coherent_of_load loaded) keyed .refl inside

/-- A history about the tangled index. -/
theorem tangled_questions_answered : ∃ document,
    Index.load (.text Index.tangledText) = .ok document ∧
    (∀ entry ∈ document.paths, entry.1.HasKey) ∧
    List.Forall₂ (Answered document) [.location "1", .resolve "3", .all, .resolve "2"]
      (transcript document "::" {} [.location "1", .resolve "3", .all, .resolve "2"]).1 := by
  obtain ⟨document, loaded, keyed, ids, _⟩ := Index.load_tangledText
  refine ⟨document, loaded, keyed, every_question_answered loaded keyed "::" _ ?_⟩
  rw [ids]
  decide

end ApiCensus.Resolver
