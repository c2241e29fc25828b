import ApiCensus.Failure
import Mathlib.Data.List.Forall2

/-!
# Outcomes of fallible operations

Loading an index and resolving its paths run through sequences of operations that
may fail.  A sequence succeeds exactly if all its operations do, and its result is
made of theirs.
-/

namespace ApiCensus.Outcome

variable {ε ε' α β : Type}

theorem bind_eq_ok_iff {first : Except ε α} {next : α → Except ε β} {result : β} :
    first >>= next = .ok result ↔
      ∃ value, first = .ok value ∧ next value = .ok result := by
  cases first with
  | error cause =>
      constructor
      · intro impossible
        cases impossible
      · rintro ⟨value, impossible, _⟩
        cases impossible
  | ok value =>
      constructor
      · intro success
        exact ⟨value, rfl, success⟩
      · rintro ⟨_, same, success⟩
        cases same
        exact success

theorem mapError_eq_ok_iff {outcome : Except ε α} {translate : ε → ε'} {value : α} :
    outcome.mapError translate = .ok value ↔ outcome = .ok value := by
  cases outcome with
  | error cause => simp [Except.mapError]
  | ok found => simp [Except.mapError]

theorem liftM_shape_eq_ok_iff {outcome : Except ShapeError α} {value : α} :
    (liftM outcome : Except Failure α) = .ok value ↔ outcome = .ok value :=
  mapError_eq_ok_iff

theorem liftM_integer_eq_ok_iff {outcome : Except Number.IntegerError α} {value : α} :
    (liftM outcome : Except Failure α) = .ok value ↔ outcome = .ok value :=
  mapError_eq_ok_iff

/-- Running an operation over a list succeeds with the results of its elements. -/
theorem mapM_eq_ok_iff {operation : α → Except ε β} {elements : List α} {results : List β} :
    elements.mapM operation = .ok results ↔
      List.Forall₂ (fun element result => operation element = .ok result) elements results := by
  induction elements generalizing results with
  | nil =>
      constructor
      · intro success
        cases success
        exact .nil
      · intro related
        cases related
        rfl
  | cons element elements induction =>
      rw [List.mapM_cons]
      constructor
      · intro success
        obtain ⟨first, firstOk, restOk⟩ := bind_eq_ok_iff.mp success
        obtain ⟨rest, moreOk, same⟩ := bind_eq_ok_iff.mp restOk
        cases same
        exact .cons firstOk (induction.mp moreOk)
      · intro related
        cases related with
        | cons firstOk moreOk =>
            exact bind_eq_ok_iff.mpr ⟨_, firstOk,
              bind_eq_ok_iff.mpr ⟨_, induction.mpr moreOk, rfl⟩⟩

theorem exists_mapM_eq_ok {operation : α → Except ε β} {elements : List α}
    (succeeds : ∀ element ∈ elements, ∃ result, operation element = .ok result) :
    ∃ results, elements.mapM operation = .ok results := by
  induction elements with
  | nil => exact ⟨[], rfl⟩
  | cons element elements induction =>
      obtain ⟨first, firstOk⟩ := succeeds element List.mem_cons_self
      obtain ⟨rest, restOk⟩ := induction fun other member =>
        succeeds other (List.mem_cons_of_mem element member)
      refine ⟨first :: rest, mapM_eq_ok_iff.mpr ?_⟩
      exact .cons firstOk (mapM_eq_ok_iff.mp restOk)

theorem exists_of_mem_mapM {operation : α → Except ε β} {elements : List α}
    {results : List β} (success : elements.mapM operation = .ok results)
    {result : β} (member : result ∈ results) :
    ∃ element ∈ elements, operation element = .ok result := by
  have related := mapM_eq_ok_iff.mp success
  induction related with
  | nil => cases member
  | @cons element first elements results firstOk _ induction =>
      rcases List.mem_cons.mp member with rfl | later
      · exact ⟨element, List.mem_cons_self, firstOk⟩
      · obtain ⟨other, otherMember, otherOk⟩ :=
          induction (mapM_eq_ok_iff.mpr ‹_›) later
        exact ⟨other, List.mem_cons_of_mem element otherMember, otherOk⟩

theorem exists_mem_of_mapM {operation : α → Except ε β} {elements : List α}
    {results : List β} (success : elements.mapM operation = .ok results)
    {element : α} (member : element ∈ elements) :
    ∃ result ∈ results, operation element = .ok result := by
  have related := mapM_eq_ok_iff.mp success
  induction related with
  | nil => cases member
  | @cons first result elements results firstOk _ induction =>
      rcases List.mem_cons.mp member with rfl | later
      · exact ⟨result, List.mem_cons_self, firstOk⟩
      · obtain ⟨other, otherMember, otherOk⟩ :=
          induction (mapM_eq_ok_iff.mpr ‹_›) later
        exact ⟨other, List.mem_cons_of_mem result otherMember, otherOk⟩

/-- A part that the operation keeps is the same in the elements and in the results. -/
theorem map_eq_of_mapM {γ : Type} {operation : α → Except ε β} {elements : List α}
    {results : List β} (success : elements.mapM operation = .ok results)
    (before : α → γ) (after : β → γ)
    (kept : ∀ element ∈ elements, ∀ result,
      operation element = .ok result → after result = before element) :
    results.map after = elements.map before := by
  have related := mapM_eq_ok_iff.mp success
  clear success
  induction related with
  | nil => rfl
  | @cons element result elements results firstOk _ induction =>
      have first := kept element List.mem_cons_self result firstOk
      have rest := induction fun other member =>
        kept other (List.mem_cons_of_mem element member)
      simp [first, rest]

/-- Two operations over one list have results that are related element by element. -/
theorem forall₂_of_mapM {γ : Type} {operation : α → Except ε β} {other : α → Except ε' γ}
    {related : β → γ → Prop} {elements : List α} {results : List β} {others : List γ}
    (success : elements.mapM operation = .ok results) (also : elements.mapM other = .ok others)
    (each : ∀ element ∈ elements, ∀ result otherResult, operation element = .ok result →
      other element = .ok otherResult → related result otherResult) :
    List.Forall₂ related results others := by
  have first := mapM_eq_ok_iff.mp success
  have second := mapM_eq_ok_iff.mp also
  clear success also
  induction first generalizing others with
  | nil =>
      cases second
      exact .nil
  | cons here _ induction =>
      cases second with
      | cons otherHere otherRest =>
          constructor
          · exact each _ List.mem_cons_self _ _ here otherHere
          · apply induction _ otherRest
            intro element member
            exact each element (List.mem_cons_of_mem _ member)

theorem forM_eq_ok_iff {check : α → Except ε PUnit} {elements : List α} :
    elements.forM check = .ok () ↔ ∀ element ∈ elements, check element = .ok () := by
  induction elements with
  | nil =>
      constructor
      · intro _ element member
        cases member
      · intro _
        rfl
  | cons element elements induction =>
      constructor
      · intro success
        obtain ⟨_, firstOk, restOk⟩ := bind_eq_ok_iff.mp success
        intro other member
        rcases List.mem_cons.mp member with rfl | later
        · exact firstOk
        · exact induction.mp restOk other later
      · intro accepted
        have restOk := induction.mpr fun other member =>
          accepted other (List.mem_cons_of_mem element member)
        exact bind_eq_ok_iff.mpr ⟨_, accepted element List.mem_cons_self, restOk⟩

/-! ### Failures -/

/-- All elements have a property, or there is a first one that has not. -/
theorem forall_or_first (holds : α → Prop) (elements : List α) :
    (∀ element ∈ elements, holds element) ∨
      ∃ before element after, elements = before ++ element :: after ∧
        (∀ earlier ∈ before, holds earlier) ∧ ¬ holds element := by
  induction elements with
  | nil => simp
  | cons element elements induction =>
      by_cases here : holds element
      · rcases induction with others | ⟨before, other, after, rfl, earlier, fails⟩
        · exact .inl (List.forall_mem_cons.mpr ⟨here, others⟩)
        · exact .inr ⟨element :: before, other, after, rfl,
            List.forall_mem_cons.mpr ⟨here, earlier⟩, fails⟩
      · exact .inr ⟨[], element, elements, rfl, by simp, here⟩

theorem exists_eq_error {outcome : Except ε α} (fails : ¬ ∃ value, outcome = .ok value) :
    ∃ cause, outcome = .error cause := by
  cases outcome with
  | error cause => exact ⟨cause, rfl⟩
  | ok value => exact absurd ⟨value, rfl⟩ fails

theorem bind_eq_error_iff {first : Except ε α} {next : α → Except ε β} {cause : ε} :
    first >>= next = .error cause ↔
      first = .error cause ∨ ∃ value, first = .ok value ∧ next value = .error cause := by
  cases first with
  | error other =>
      constructor
      · intro failed
        cases failed
        exact .inl rfl
      · rintro (failed | ⟨value, impossible, _⟩)
        · cases failed
          rfl
        · cases impossible
  | ok value =>
      constructor
      · intro failed
        exact .inr ⟨value, rfl, failed⟩
      · rintro (impossible | ⟨_, same, failed⟩)
        · cases impossible
        · cases same
          exact failed

theorem mapError_eq_error_iff {outcome : Except ε α} {translate : ε → ε'} {cause : ε'} :
    outcome.mapError translate = .error cause ↔
      ∃ reason, outcome = .error reason ∧ translate reason = cause := by
  cases outcome with
  | error reason => simp [Except.mapError]
  | ok value => simp [Except.mapError]

theorem mapError_bind (outcome : Except ε α) (next : α → Except ε β) (translate : ε → ε') :
    (outcome >>= next).mapError translate =
      outcome.mapError translate >>= fun value => (next value).mapError translate := by
  cases outcome <;> rfl

/-- The first element on which an operation fails decides. -/
theorem mapM_of_first {operation : α → Except ε β} {before after : List α} {element : α}
    {cause : ε} (earlier : ∀ other ∈ before, ∃ result, operation other = .ok result)
    (failed : operation element = .error cause) :
    (before ++ element :: after).mapM operation = .error cause := by
  obtain ⟨results, resultsOk⟩ := exists_mapM_eq_ok earlier
  rw [List.mapM_append, resultsOk, List.mapM_cons, failed]
  rfl

theorem liftM_shape_ne_load {outcome : Except ShapeError α} {cause : LoadError} :
    (liftM outcome : Except Failure α) ≠ .error (.load cause) := by
  intro failed
  cases outcome with
  | error other => cases failed
  | ok value => cases failed

theorem liftM_integer_ne_load {outcome : Except Number.IntegerError α} {cause : LoadError} :
    (liftM outcome : Except Failure α) ≠ .error (.load cause) := by
  intro failed
  cases outcome with
  | error other => cases failed
  | ok value => cases failed

/-- A run over a list that fails does so at one of the elements. -/
theorem exists_of_mapM_eq_error {operation : α → Except ε β} {elements : List α} {cause : ε}
    (failed : elements.mapM operation = .error cause) :
    ∃ element ∈ elements, operation element = .error cause := by
  induction elements with
  | nil => cases failed
  | cons element elements induction =>
      rw [List.mapM_cons] at failed
      rcases bind_eq_error_iff.mp failed with firstFailed | ⟨first, _, failed⟩
      · exact ⟨element, List.mem_cons_self, firstFailed⟩
      · rcases bind_eq_error_iff.mp failed with restFailed | ⟨rest, _, impossible⟩
        · obtain ⟨other, member, otherFailed⟩ := induction restFailed
          exact ⟨other, List.mem_cons_of_mem element member, otherFailed⟩
        · cases impossible

/-- Checks are made in order: all before the one that fails have passed. -/
theorem split_of_forM_eq_error {check : α → Except ε PUnit} {elements : List α} {cause : ε}
    (failed : elements.forM check = .error cause) :
    ∃ before element after, elements = before ++ element :: after ∧
      (∀ other ∈ before, check other = .ok ()) ∧ check element = .error cause := by
  induction elements with
  | nil => cases failed
  | cons element elements induction =>
      rcases bind_eq_error_iff.mp failed with firstFailed | ⟨_, firstOk, restFailed⟩
      · exact ⟨[], element, elements, rfl, by simp, firstFailed⟩
      · obtain ⟨before, other, after, rfl, passed, otherFailed⟩ := induction restFailed
        refine ⟨element :: before, other, after, rfl, ?_, otherFailed⟩
        exact List.forall_mem_cons.mpr ⟨firstOk, passed⟩

/-! ### How operations fail -/

/-- If the operation fails, then as expected. -/
def FailsAs (expected : ε → Prop) (outcome : Except ε α) : Prop :=
  ∀ cause, outcome = .error cause → expected cause

variable {expected : ε → Prop}

theorem failsAs_ok (value : α) : FailsAs expected (.ok value : Except ε α) := by
  intro cause failed
  cases failed

theorem failsAs_error {cause : ε} (holds : expected cause) :
    FailsAs expected (.error cause : Except ε α) := by
  intro other failed
  cases failed
  exact holds

theorem failsAs_bind {outcome : Except ε α} {next : α → Except ε β}
    (first : FailsAs expected outcome)
    (rest : ∀ value, outcome = .ok value → FailsAs expected (next value)) :
    FailsAs expected (outcome >>= next) := by
  intro cause failed
  rcases bind_eq_error_iff.mp failed with failed | ⟨value, valueOk, failed⟩
  · exact first cause failed
  · exact rest value valueOk cause failed

theorem failsAs_mapM {operation : α → Except ε β} {elements : List α}
    (each : ∀ element ∈ elements, FailsAs expected (operation element)) :
    FailsAs expected (elements.mapM operation) := by
  intro cause failed
  obtain ⟨element, member, failed⟩ := exists_of_mapM_eq_error failed
  exact each element member cause failed

theorem failsAs_forM {check : α → Except ε PUnit} {elements : List α}
    (each : ∀ element ∈ elements, FailsAs expected (check element)) :
    FailsAs expected (elements.forM check) := by
  intro cause failed
  obtain ⟨before, element, after, split, _, failed⟩ := split_of_forM_eq_error failed
  exact each element (by simp [split]) cause failed

/-! ### Outcomes that agree -/

/-- Both succeed with related results, or both fail for the same cause. -/
inductive Agree (related : α → β → Prop) : Except ε α → Except ε β → Prop
  | ok {value : α} {other : β} : related value other → Agree related (.ok value) (.ok other)
  | error (cause : ε) : Agree related (.error cause) (.error cause)

namespace Agree

variable {γ δ : Type} {related : α → β → Prop} {following : γ → δ → Prop}
  {outcome : Except ε α} {other : Except ε β}

theorem refl {related : α → α → Prop} (holds : ∀ value, related value value)
    (outcome : Except ε α) : Agree related outcome outcome := by
  cases outcome with
  | ok value => exact .ok (holds value)
  | error cause => exact .error cause

theorem symm (agree : Agree related outcome other) :
    Agree (fun right left => related left right) other outcome := by
  cases agree with
  | ok holds => exact .ok holds
  | error cause => exact .error cause

theorem mono {weaker : α → β → Prop} (agree : Agree related outcome other)
    (implied : ∀ value otherValue, related value otherValue → weaker value otherValue) :
    Agree weaker outcome other := by
  cases agree with
  | ok holds => exact .ok (implied _ _ holds)
  | error cause => exact .error cause

theorem bind {next : α → Except ε γ} {otherNext : β → Except ε δ}
    (agree : Agree related outcome other)
    (rest : ∀ value otherValue, related value otherValue →
      Agree following (next value) (otherNext otherValue)) :
    Agree following (outcome >>= next) (other >>= otherNext) := by
  cases agree with
  | ok holds => exact rest _ _ holds
  | error cause => exact .error cause

/-- Two continuations of the same outcome agree if they agree on its result. -/
theorem bind_same {outcome : Except ε α} {next : α → Except ε γ} {otherNext : α → Except ε δ}
    (rest : ∀ value, Agree following (next value) (otherNext value)) :
    Agree following (outcome >>= next) (outcome >>= otherNext) := by
  cases outcome with
  | ok value => exact rest value
  | error cause => exact .error cause

theorem mapError (agree : Agree related outcome other) (translate : ε → ε') :
    Agree related (outcome.mapError translate) (other.mapError translate) := by
  cases agree with
  | ok holds => exact .ok holds
  | error cause => exact .error (translate cause)

theorem exists_ok {value : α} (agree : Agree related outcome other)
    (success : outcome = .ok value) : ∃ otherValue, other = .ok otherValue ∧
      related value otherValue := by
  subst success
  cases agree with
  | ok holds => exact ⟨_, rfl, holds⟩

theorem mapM {operation : α → Except ε γ} {otherOperation : β → Except ε δ}
    {elements : List α} {others : List β} (pairs : List.Forall₂ related elements others)
    (each : ∀ element otherElement, related element otherElement →
      Agree following (operation element) (otherOperation otherElement)) :
    Agree (List.Forall₂ following) (elements.mapM operation) (others.mapM otherOperation) := by
  induction pairs with
  | nil => exact .ok .nil
  | cons first _ induction =>
      rw [List.mapM_cons, List.mapM_cons]
      refine (each _ _ first).bind fun value otherValue holds => ?_
      refine induction.bind fun values otherValues rest => ?_
      exact .ok (.cons holds rest)

end Agree

end ApiCensus.Outcome
