import ApiCensus.Proofs.AdmissibleContainers
import ApiCensus.Proofs.JoinedNames

/-!
# Ties between containers

Of two containers whose stems have the same number of segments, an item lies below the one whose
joined stem comes first.  Its own path need not come first: joined paths go on after the stem with
the separator, and where one joined stem is the beginning of the other, the separator is compared
with what follows in the longer one.  The digits come before the colon, so that `c::a1::x` comes
before `c::a::x`, but `c::a` before `c::a1`.

For names without colons this is the only exception: the stems agree but for their last names, of
which one goes on where the other ends, with a character before the colon.
-/

namespace ApiCensus

/-! ### Texts -/

namespace Text

/-- An ending changes the order of two texts only if one of them is the beginning of the other. -/
theorem append_lt_append_right_iff {left right : List Char} (lower : ¬ right < left)
    (ending : List Char) :
    right ++ ending < left ++ ending ↔
      ∃ rest, right = left ++ rest ∧ rest ++ ending < ending := by
  induction left generalizing right with
  | nil => simp
  | cons c left induction =>
      cases right with
      | nil => simp at lower
      | cons d right =>
          rw [List.cons_lt_cons_iff, not_or, not_and] at lower
          obtain ⟨notBefore, lower⟩ := lower
          simp only [List.cons_append, List.cons_lt_cons_iff, List.cons.injEq, notBefore,
            false_or]
          by_cases same : d = c
          · simp [same, induction (lower same)]
          · simp [same]

theorem append_cons_inj {c : Char} {left right after other : List Char} (absent : c ∉ left)
    (otherAbsent : c ∉ right) (same : left ++ c :: after = right ++ c :: other) :
    left = right ∧ after = other := by
  rcases List.append_eq_append_iff.mp same with ⟨between, rfl, split⟩ | ⟨between, rfl, split⟩
  · cases between with
    | nil => simpa using split
    | cons d between =>
        cases (List.cons.inj split).1
        exact absurd (by simp) otherAbsent
  · cases between with
    | nil => simpa using split.symm
    | cons d between =>
        cases (List.cons.inj split).1
        exact absurd (by simp) absent

/-- Two lists of names agree but for the last name.  That of the second list goes on where that of
the first one ends, with a character before the bound. -/
def ContinuesBefore (bound : Char) (left right : List String) : Prop :=
  ∃ above name rest, left = above ++ [name] ∧ right = above ++ [name ++ rest] ∧
    ∃ c ∈ rest.toList.head?, c < bound

variable {separator rest : String} {bound : Char} {tail : List Char} {left right : List String}

theorem concat_lt_concat_iff {left right : String} (lower : left ≤ right) (ending : String) :
    right ++ ending < left ++ ending ↔
      ∃ rest, right = left ++ rest ∧ rest ++ ending < ending := by
  rw [← String.not_lt, String.lt_iff] at lower
  rw [String.lt_iff, String.toList_append, String.toList_append,
    append_lt_append_right_iff lower]
  constructor
  · rintro ⟨rest, same, below⟩
    refine ⟨String.ofList rest, ?_, ?_⟩
    · rw [← String.toList_inj, same, String.toList_append, String.toList_ofList]
    · rwa [String.lt_iff, String.toList_append, String.toList_ofList]
  · rintro ⟨rest, rfl, below⟩
    rw [String.lt_iff, String.toList_append] at below
    exact ⟨rest.toList, String.toList_append, below⟩

theorem intercalate_concat_lt_iff (sameLength : right.length = left.length)
    (lower : separator.intercalate left ≤ separator.intercalate right) (name : String) :
    separator.intercalate (right ++ [name]) < separator.intercalate (left ++ [name]) ↔
      ∃ rest, separator.intercalate right = separator.intercalate left ++ rest ∧
        rest ++ (separator ++ name) < separator ++ name := by
  cases left with
  | nil =>
      obtain rfl := List.length_eq_zero_iff.mp sameLength
      constructor
      · intro impossible
        exact absurd impossible (String.lt_irrefl _)
      · rintro ⟨rest, same, below⟩
        obtain rfl : rest = "" := by simpa using same.symm
        rw [String.empty_append] at below
        exact absurd below (String.lt_irrefl _)
  | cons first left =>
      obtain ⟨otherFirst, right, rfl⟩ := List.exists_cons_of_length_eq_add_one sameLength
      rw [String.intercalate_append_of_ne_nil (by simp) (by simp),
        String.intercalate_append_of_ne_nil (by simp) (by simp), String.intercalate_singleton,
        String.append_assoc, String.append_assoc]
      exact concat_lt_concat_iff lower (separator ++ name)

theorem intercalate_concat_append (separator : String) (above : List String)
    (name rest : String) : separator.intercalate (above ++ [name ++ rest]) =
      separator.intercalate (above ++ [name]) ++ rest := by
  cases above with
  | nil => simp
  | cons first above =>
      rw [String.intercalate_append_of_ne_nil (by simp) (by simp),
        String.intercalate_append_of_ne_nil (by simp) (by simp), String.intercalate_singleton,
        String.intercalate_singleton, ← String.append_assoc]

/-- If the names are free of the first character of the separator, joined names go on after as many
others only if the last name goes on after the last of the others. -/
theorem exists_last_of_joined (starts : separator.toList = bound :: tail)
    (sameLength : right.length = left.length) (leftFree : ∀ name ∈ left, bound ∉ name.toList)
    (rightFree : ∀ name ∈ right, bound ∉ name.toList) (continued : rest ≠ "")
    (joined : separator.intercalate right = separator.intercalate left ++ rest) :
    ∃ above name, left = above ++ [name] ∧ right = above ++ [name ++ rest] := by
  induction left generalizing right with
  | nil =>
      obtain rfl := List.length_eq_zero_iff.mp sameLength
      exact absurd (by simpa using joined.symm) continued
  | cons name left induction =>
      obtain ⟨otherName, right, rfl⟩ := List.exists_cons_of_length_eq_add_one sameLength
      cases left with
      | nil =>
          obtain rfl := List.length_eq_zero_iff.mp (Nat.succ.inj sameLength)
          exact ⟨[], name, rfl, by simpa using joined⟩
      | cons next left =>
          obtain ⟨otherNext, right, rfl⟩ :=
            List.exists_cons_of_length_eq_add_one (Nat.succ.inj sameLength)
          obtain ⟨leftFirst, leftOthers⟩ := List.forall_mem_cons.mp leftFree
          obtain ⟨rightFirst, rightOthers⟩ := List.forall_mem_cons.mp rightFree
          rw [String.intercalate_cons_cons, String.intercalate_cons_cons, ← String.toList_inj]
            at joined
          simp only [String.toList_append, starts, List.append_assoc, List.cons_append] at joined
          obtain ⟨sameName, following⟩ := append_cons_inj rightFirst leftFirst joined
          rw [← String.toList_append] at following
          obtain ⟨above, last, sameLeft, sameRight⟩ :=
            induction (Nat.succ.inj sameLength) leftOthers rightOthers
              (String.toList_inj.mp (List.append_cancel_left following))
          obtain rfl := String.toList_inj.mp sameName
          exact ⟨otherName :: above, last, by simp [sameLeft], by simp [sameRight]⟩

/-- Among names that are free of the first character of the separator, one more name at the end
changes the order just if a last name goes on with a character before the separator. -/
theorem continuesBefore_iff (starts : separator.toList = bound :: tail)
    (sameLength : right.length = left.length)
    (lower : separator.intercalate left ≤ separator.intercalate right)
    (free : ∀ name ∈ left ++ right, bound ∉ name.toList) (name : String) :
    separator.intercalate (right ++ [name]) < separator.intercalate (left ++ [name]) ↔
      ContinuesBefore bound left right := by
  rw [intercalate_concat_lt_iff sameLength lower]
  constructor
  · rintro ⟨rest, joined, below⟩
    have continued : rest ≠ "" := by
      rintro rfl
      rw [String.empty_append] at below
      exact String.lt_irrefl _ below
    obtain ⟨leftFree, rightFree⟩ := List.forall_mem_append.mp free
    obtain ⟨above, last, rfl, rfl⟩ :=
      exists_last_of_joined starts sameLength leftFree rightFree continued joined
    obtain ⟨c, others, characters⟩ :=
      List.exists_cons_of_ne_nil (String.toList_inj.not.mpr continued)
    rw [String.lt_iff, String.toList_append, String.toList_append, starts, characters] at below
    rcases List.cons_lt_cons_iff.mp below with before | ⟨rfl, _⟩
    · exact ⟨above, last, rest, rfl, rfl, c, by simp [characters], before⟩
    · have inside : c ∈ (last ++ rest).toList := by simp [characters]
      exact absurd inside (rightFree _ (by simp))
  · rintro ⟨above, last, rest, rfl, rfl, c, continued, before⟩
    obtain ⟨others, characters⟩ := List.head?_eq_some_iff.mp continued
    refine ⟨rest, intercalate_concat_append separator above last rest, ?_⟩
    rw [String.lt_iff, String.toList_append, String.toList_append, characters, starts]
    exact List.cons_lt_cons_iff.mpr (.inl before)

end Text

/-! ### Locations -/

namespace Resolver

variable {document : Document} {separator : String} {resolver : Resolver} {id container : ItemId}

/-- The segments before the name of an item below the container: those of the location of the
container, of which the last one stays if the container has a name, or those of its summary. -/
inductive StemOf (document : Document) (separator : String) (resolver : Resolver)
    (container : ItemId) : List String → Prop
  | inside {owner : Item} {place : ResolvedPath} : document.item? container = some owner →
      (location document separator container).run resolver = (.ok place, resolver) →
      StemOf document separator resolver container
        (place.segments.dropLast ++ owner.properName?.toList)
  | outside {summary : PathSummary} : document.item? container = none →
      document.summary? container = some summary →
      StemOf document separator resolver container summary.segments

theorem stemOf_of_stem_eq_ok (keys : resolver.SameKeys) {segments : List String}
    (stemOk : stem document resolver container = .ok segments) :
    StemOf document separator resolver container segments := by
  rcases of_stem_eq_ok keys stemOk with ⟨owner, place, found, placed, rfl⟩ |
    ⟨absent, summary, known, rfl⟩
  · have located : (location document separator container).run resolver =
        (.ok (declaredPath owner place), resolver) := run_location_of_placed found placed
    simpa [declaredPath] using StemOf.inside found located
  · exact .outside absent known

/-- An item lies below an admissible container with the shortest stem and, of those, with the
joined stem that comes first.  The joined path through another container with a stem of the same
length comes first exactly if the joined stems agree as far as one goes and the rest of the other
one, with the separator and the last name after it, comes before these alone.  If no name has a
colon, this is so exactly if the last name of the other stem continues the last name of the stem
with a character before the colon. -/
theorem location_tie {source : Index.Source} (loaded : Index.load source = .ok document)
    (questions : List Question) (inside : id ∈ document.ids) :
    (document.OrdersAbove id → ∃ path next,
      (location document "::" id).run (after document "::" questions) = (.ok path, next)) ∧
    ∀ path next,
      (location document "::" id).run (after document "::" questions) = (.ok path, next) →
      ∀ parent container, path.parent = some parent → document.Admits id container →
      ∃ item stem other, document.item? id = some item ∧ document.Admits id parent ∧
        StemOf document "::" next parent stem ∧ StemOf document "::" next container other ∧
        path.segments = stem ++ [item.leaf] ∧ stem.length ≤ other.length ∧
        (other.length = stem.length →
          "::".intercalate stem ≤ "::".intercalate other ∧
          ("::".intercalate (other ++ [item.leaf]) < "::".intercalate (stem ++ [item.leaf]) ↔
            ∃ rest, "::".intercalate other = "::".intercalate stem ++ rest ∧
              rest ++ ("::" ++ item.leaf) < "::" ++ item.leaf) ∧
          ((∀ name ∈ stem ++ other, ':' ∉ name.toList) →
            ("::".intercalate (other ++ [item.leaf]) < "::".intercalate (stem ++ [item.leaf]) ↔
              Text.ContinuesBefore ':' stem other))) := by
  refine ⟨exists_location_of_ordersAbove (after_advances questions) inside, ?_⟩
  intro path next asked parent container canonical admits
  have coherent := Index.coherent_of_load loaded
  obtain ⟨item, placement, found, placed, rfl⟩ := of_location_eq_ok asked
  have reached := advances_of_location asked
  have keys := sameKeys_of_advances reached
  have reason := reason_of_placed coherent reached found placed
  have lies := reason.liesBelow canonical
  obtain ⟨other, otherOk, shorter, first⟩ := lies.least container admits
  refine ⟨item, placement.base, other, found, lies.admits, stemOf_of_stem_eq_ok keys lies.stemOk,
    stemOf_of_stem_eq_ok keys otherOk, rfl, shorter, ?_⟩
  intro sameLength
  refine ⟨first sameLength, Text.intercalate_concat_lt_iff sameLength (first sameLength) _, ?_⟩
  intro free
  exact Text.continuesBefore_iff rfl sameLength (first sameLength) free item.leaf

theorem admits_twins : Index.twins.Admits "3" "2" := by
  refine ⟨_, rfl, by decide, ?_⟩
  rintro ⟨owner, parent, owns⟩
  have unowned : ∀ owner ∈ ["1", "2"], implementsOn Index.twins owner "3" = false := by decide
  rw [← implementsOn_iff, unowned owner parent] at owns
  cases owns

/-- The item in two modules lies below the first of them, and the stem of this one comes first. -/
theorem twins_location_tie :
    Index.load (.text Index.twinText) = .ok Index.twins ∧ "3" ∈ Index.twins.ids ∧
    Index.twins.Admits "3" "2" ∧
    ∃ item stem other, Index.twins.item? "3" = some item ∧ Index.twins.Admits "3" "1" ∧
      StemOf Index.twins "::" twinPlaced "1" stem ∧
      StemOf Index.twins "::" twinPlaced "2" other ∧ ["c", "a", "x"] = stem ++ [item.leaf] ∧
      stem.length ≤ other.length ∧ (other.length = stem.length →
        "::".intercalate stem ≤ "::".intercalate other) := by
  have inside : "3" ∈ Index.twins.ids := by decide
  obtain ⟨item, stem, other, found, admits, stemOf, otherOf, segments, shorter, tie⟩ :=
    (location_tie Index.load_twins [] inside).2 _ _ locate_twins "1" "2" rfl admits_twins
  exact ⟨Index.load_twins, inside, admits_twins, item, stem, other, found, admits, stemOf, otherOf,
    segments, shorter, fun sameLength => (tie sameLength).1⟩

/-- The path through the second module would have as many segments and would come first. -/
theorem twins_overtaken :
    Index.load (.text Index.twinText) = .ok Index.twins ∧ Index.twins.Unlooped "3" ∧
    (location Index.twins "::" "3").run {} =
      (.ok { segments := ["c", "a"] ++ ["x"], parent := some "1", module := some "1" },
        twinPlaced) ∧
    Index.twins.Admits "3" "2" ∧ StemOf Index.twins "::" twinPlaced "2" ["c", "a1"] ∧
    ¬ "::".intercalate (["c", "a"] ++ ["x"]) ≤ "::".intercalate (["c", "a1"] ++ ["x"]) := by
  refine ⟨Index.load_twins, Index.unlooped_twins, locate_twins, admits_twins, ?_, by decide⟩
  have reached : Advances Index.twins "::" {} twinPlaced :=
    @advances_of_location _ _ [] _ _ _ locate_twins
  exact stemOf_of_stem_eq_ok (sameKeys_of_advances reached) rfl

end Resolver

end ApiCensus
