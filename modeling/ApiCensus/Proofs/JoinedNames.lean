import ApiCensus.Proofs.Settling

/-!
# The order of joined names

Containers of the same depth are compared by their joined names, so the separator may decide
which of them is the smaller one.  It does so where one segment ends and another goes on: there
the first character of the separator is compared with a character of a segment.  Two separators
whose first characters compare alike with all characters of the segments order all lists of the
same length alike, and the choice of a container does not depend on which of them is used.
-/

namespace ApiCensus

/-! ### Texts -/

namespace Text

/-- The character comes before both of the others, or after both. -/
def SameSide (first second c : Char) : Prop :=
  c < first ∧ c < second ∨ first < c ∧ second < c

instance (first second c : Char) : Decidable (SameSide first second c) :=
  inferInstanceAs (Decidable (_ ∨ _))

variable {first second c : Char}

theorem SameSide.ne (side : SameSide first second c) : c ≠ first ∧ c ≠ second := by
  rcases side with ⟨below, otherBelow⟩ | ⟨above, otherAbove⟩
  · exact ⟨Char.ne_of_lt below, Char.ne_of_lt otherBelow⟩
  · exact ⟨(Char.ne_of_lt above).symm, (Char.ne_of_lt otherAbove).symm⟩

theorem SameSide.lt_iff (side : SameSide first second c) :
    (c < first ↔ c < second) ∧ (first < c ↔ second < c) := by
  rcases side with ⟨below, otherBelow⟩ | ⟨above, otherAbove⟩
  · simp [below, otherBelow, Char.lt_asymm below, Char.lt_asymm otherBelow]
  · simp [above, otherAbove, Char.lt_asymm above, Char.lt_asymm otherAbove]

theorem cons_lt_cons_of_ne {c d : Char} (different : c ≠ d) (left right : List Char) :
    c :: left < d :: right ↔ c < d := by
  simp [List.cons_lt_cons_iff, different]

theorem append_lt_append_iff (shared left right : List Char) :
    shared ++ left < shared ++ right ↔ left < right := by
  induction shared with
  | nil => rfl
  | cons c shared induction =>
      rw [List.cons_append, List.cons_append, List.cons_lt_cons_iff, induction]
      simp

/-- Where two segments part, one of them may have ended. -/
theorem segment_lt_iff {left right : List Char}
    (leftSide : ∀ c ∈ left, SameSide first second c)
    (rightSide : ∀ c ∈ right, SameSide first second c) {next other next' other' : List Char}
    (rest : first :: next < first :: other ↔ second :: next' < second :: other') :
    left ++ first :: next < right ++ first :: other ↔
      left ++ second :: next' < right ++ second :: other' := by
  induction left generalizing right with
  | nil =>
      cases right with
      | nil => exact rest
      | cons d right =>
          have side := rightSide d List.mem_cons_self
          rw [List.nil_append, List.nil_append, List.cons_append, List.cons_append,
            cons_lt_cons_of_ne side.ne.1.symm, cons_lt_cons_of_ne side.ne.2.symm]
          exact side.lt_iff.2
  | cons c left induction =>
      have side := leftSide c List.mem_cons_self
      cases right with
      | nil =>
          rw [List.nil_append, List.nil_append, List.cons_append, List.cons_append,
            cons_lt_cons_of_ne side.ne.1, cons_lt_cons_of_ne side.ne.2]
          exact side.lt_iff.1
      | cons d right =>
          have shorter := induction (fun c member => leftSide c (List.mem_cons_of_mem _ member))
            fun c member => rightSide c (List.mem_cons_of_mem _ member)
          simp only [List.cons_append, List.cons_lt_cons_iff, shorter]

theorem joined_lt_iff {left right : List (List Char)} (sameLength : left.length = right.length)
    (leftSide : ∀ segment ∈ left, ∀ c ∈ segment, SameSide first second c)
    (rightSide : ∀ segment ∈ right, ∀ c ∈ segment, SameSide first second c)
    (rest otherRest : List Char) :
    (first :: rest).intercalate left < (first :: rest).intercalate right ↔
      (second :: otherRest).intercalate left < (second :: otherRest).intercalate right := by
  induction left generalizing right with
  | nil =>
      obtain rfl := List.length_eq_zero_iff.mp sameLength.symm
      simp
  | cons segment left induction =>
      cases right with
      | nil => cases sameLength
      | cons otherSegment right =>
          have following := induction (Nat.succ.inj sameLength)
            (fun segment member => leftSide segment (List.mem_cons_of_mem _ member))
            fun segment member => rightSide segment (List.mem_cons_of_mem _ member)
          cases left with
          | nil =>
              obtain rfl := List.length_eq_zero_iff.mp (Nat.succ.inj sameLength).symm
              simp
          | cons next left =>
              cases right with
              | nil => cases sameLength
              | cons otherNext right =>
                  simp only [List.intercalate_cons_cons, List.append_assoc, List.cons_append]
                  apply segment_lt_iff (leftSide segment List.mem_cons_self)
                    (rightSide otherSegment List.mem_cons_self)
                  rw [← List.cons_append, ← List.cons_append, append_lt_append_iff, following,
                    ← List.cons_append, ← List.cons_append, append_lt_append_iff]

/-- No character of the text is one of the first characters of the separators or between them. -/
def Clear (separator other text : String) : Prop :=
  ∀ first ∈ separator.toList.head?, ∀ second ∈ other.toList.head?, ∀ c ∈ text.toList,
    SameSide first second c

-- Decided over the characters at hand, not over all characters.
instance (separator other text : String) : Decidable (Clear separator other text) :=
  decidable_of_iff (separator.toList.head?.all fun first => other.toList.head?.all fun second =>
    text.toList.all fun c => decide (SameSide first second c)) (by
      simp only [Clear, Option.all_eq_true, List.all_eq_true, decide_eq_true_eq, Option.mem_def])

variable {separator other : String} {left right : List String}

theorem intercalate_lt_iff (nonempty : separator ≠ "") (otherNonempty : other ≠ "")
    (sameLength : left.length = right.length)
    (leftClear : ∀ text ∈ left, Clear separator other text)
    (rightClear : ∀ text ∈ right, Clear separator other text) :
    separator.intercalate left < separator.intercalate right ↔
      other.intercalate left < other.intercalate right := by
  rw [← String.toList_inj.ne] at nonempty otherNonempty
  obtain ⟨first, rest, starts⟩ := List.exists_cons_of_ne_nil nonempty
  obtain ⟨second, otherRest, otherStarts⟩ := List.exists_cons_of_ne_nil otherNonempty
  have sides : ∀ {texts : List String}, (∀ text ∈ texts, Clear separator other text) →
      ∀ segment ∈ texts.map String.toList, ∀ c ∈ segment, SameSide first second c := by
    intro texts clear segment member
    obtain ⟨text, inside, rfl⟩ := List.mem_map.mp member
    exact clear text inside first (by simp [starts]) second (by simp [otherStarts])
  simp only [String.lt_iff, String.toList_intercalate, starts, otherStarts]
  apply joined_lt_iff _ (sides leftClear) (sides rightClear)
  simpa using sameLength

theorem intercalate_eq_iff (nonempty : separator ≠ "") (otherNonempty : other ≠ "")
    (sameLength : left.length = right.length)
    (leftClear : ∀ text ∈ left, Clear separator other text)
    (rightClear : ∀ text ∈ right, Clear separator other text) :
    separator.intercalate left = separator.intercalate right ↔
      other.intercalate left = other.intercalate right := by
  have below := intercalate_lt_iff nonempty otherNonempty sameLength leftClear rightClear
  have above := intercalate_lt_iff nonempty otherNonempty sameLength.symm rightClear leftClear
  have both : ∀ one another : String, one = another ↔ ¬ one < another ∧ ¬ another < one := by
    intro one another
    rw [String.not_lt, String.not_lt]
    constructor
    · rintro rfl
      exact ⟨String.le_refl one, String.le_refl one⟩
    · rintro ⟨above, below⟩
      exact String.le_antisymm below above
  rw [both, both, below, above]

end Text

/-! ### Choices -/

namespace Resolver

variable {document : Document} {resolver : Resolver} {separator other : String}

/-- The pairs rank the same candidate, one with each separator, and its stem is clear. -/
structure RanksAlike (separator other : String) (pair otherPair : Rank × Candidate) : Prop where
  same : pair.2 = otherPair.2
  rank : pair.2.rank separator = .ok pair.1
  otherRank : pair.2.rank other = .ok otherPair.1
  clear : ∀ text ∈ pair.2.stem, Text.Clear separator other text

theorem RanksAlike.lt_eq (nonempty : separator ≠ "") (otherNonempty : other ≠ "")
    {left otherLeft right otherRight : Rank × Candidate}
    (leftAlike : RanksAlike separator other left otherLeft)
    (rightAlike : RanksAlike separator other right otherRight) :
    left.1.lt right.1 = otherLeft.1.lt otherRight.1 := by
  obtain ⟨leftKey, leftKeyOk, leftRank⟩ := rank_eq_ok_iff.mp leftAlike.rank
  obtain ⟨_, leftSame, otherLeftRank⟩ := rank_eq_ok_iff.mp leftAlike.otherRank
  obtain ⟨rightKey, rightKeyOk, rightRank⟩ := rank_eq_ok_iff.mp rightAlike.rank
  obtain ⟨_, rightSame, otherRightRank⟩ := rank_eq_ok_iff.mp rightAlike.otherRank
  cases leftKeyOk.symm.trans leftSame
  cases rightKeyOk.symm.trans rightSame
  rw [leftRank, otherLeftRank, rightRank, otherRightRank]
  unfold Rank.lt
  dsimp only
  by_cases sameLength : left.2.stem.length = right.2.stem.length
  · have below := Text.intercalate_lt_iff nonempty otherNonempty sameLength leftAlike.clear
      rightAlike.clear
    have equal := Text.intercalate_eq_iff nonempty otherNonempty sameLength leftAlike.clear
      rightAlike.clear
    simp only [below, beq_eq_decide, equal]
  · simp only [beq_false_of_ne sameLength, Bool.false_and]

/-- Candidates that are ranked with one separator are ranked with the other as well. -/
theorem exists_ranksAlike {choices : List Candidate} {ranked : List (Rank × Candidate)}
    (related : List.Forall₂
      (fun candidate pair => candidate.rank separator = .ok pair.1 ∧ pair.2 = candidate)
      choices ranked)
    (clear : ∀ candidate ∈ choices, ∀ text ∈ candidate.stem, Text.Clear separator other text) :
    ∃ otherRanked,
      List.Forall₂ (fun candidate pair => candidate.rank other = .ok pair.1 ∧ pair.2 = candidate)
        choices otherRanked ∧
      List.Forall₂ (RanksAlike separator other) ranked otherRanked := by
  induction related with
  | nil => exact ⟨[], .nil, .nil⟩
  | @cons candidate pair _ _ first _ induction =>
      obtain ⟨clearFirst, clearRest⟩ := List.forall_mem_cons.mp clear
      obtain ⟨otherRanked, otherRelated, alike⟩ := induction clearRest
      obtain ⟨rankOk, same⟩ := first
      obtain ⟨key, keyOk, _⟩ := rank_eq_ok_iff.mp rankOk
      have otherOk : candidate.rank other = .ok ⟨candidate.stem.length,
          other.intercalate candidate.stem, key⟩ :=
        rank_eq_ok_iff.mpr ⟨key, keyOk, rfl⟩
      exact ⟨(_, candidate) :: otherRanked, .cons ⟨otherOk, rfl⟩ otherRelated,
        .cons ⟨same, same ▸ rankOk, same ▸ otherOk, same ▸ clearFirst⟩ alike⟩

theorem leastFrom_of_alike (nonempty : separator ≠ "") (otherNonempty : other ≠ "")
    {best otherBest : Rank × Candidate} {rest otherRest : List (Rank × Candidate)}
    (first : RanksAlike separator other best otherBest)
    (following : List.Forall₂ (RanksAlike separator other) rest otherRest) :
    leastFrom best rest = leastFrom otherBest otherRest := by
  induction following generalizing best otherBest with
  | nil => exact first.same
  | cons next _ induction =>
      rw [leastFrom, leastFrom, next.lt_eq nonempty otherNonempty first]
      split
      · exact induction next
      · exact induction first

/-- If all stems are clear, an item is settled alike with both separators. -/
theorem settle_of_clear (nonempty : separator ≠ "") (otherNonempty : other ≠ "") {item : Item}
    {placement : Placement} (settled : settle document separator resolver item = .ok placement)
    (clear : ∀ container ∈ item.parents, ∀ segments,
      stem document resolver container = .ok segments →
        ∀ text ∈ segments, Text.Clear separator other text) :
    settle document other resolver item = .ok placement := by
  obtain ⟨found, ranked, foundOk, related, rfl⟩ := settle_eq_ok_iff.mp settled
  have stems : ∀ candidate ∈ admissible document item.id found,
      ∀ text ∈ candidate.stem, Text.Clear separator other text := by
    intro candidate member
    obtain ⟨parent, _, stemOk⟩ := of_mem_candidates foundOk (mem_of_mem_admissible member)
    exact clear candidate.id parent candidate.stem stemOk
  obtain ⟨otherRanked, otherRelated, alike⟩ := exists_ranksAlike related stems
  refine settle_eq_ok_iff.mpr ⟨found, otherRanked, foundOk, otherRelated, ?_⟩
  cases alike with
  | nil => rfl
  | cons first rest =>
      dsimp only [placementBy]
      rw [leastFrom_of_alike nonempty otherNonempty first rest]

end Resolver

end ApiCensus
