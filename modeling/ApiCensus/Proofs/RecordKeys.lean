import ApiCensus.Value.Basic

/-!
# Keys of records

Keys are compared as the members of a set are: texts by their content, moments by kind and
position, numbers by value, whatever their kind.  Every key but one that is not a number shows a
face, and two keys are the same exactly if they show the same face.  A record can therefore be
looked up with any key that is the same, and a value that is put under a key is found under just
the keys that are the same.
-/

namespace ApiCensus

/-- A number, or what lies beyond all of them. -/
inductive Binary64.Position
  | below
  | number (value : Rat)
  | above

namespace Binary64.Place

/-- The position of a place; equal fractions have one position. -/
def position : Place → Position
  | .below => .below
  | .at num den => .number (mkRat num den)
  | .above => .above

/-- The place lies beyond all numbers, or is a fraction with a denominator. -/
def Proper : Place → Prop
  | .at _ den => den ≠ 0
  | _ => True

theorem compare_eq_iff {left right : Place} (leftProper : Proper left)
    (rightProper : Proper right) :
    (left.compare right == .eq) = true ↔ left.position = right.position := by
  cases left with
  | below => cases right <;> simp [compare, position]
  | above => cases right <;> simp [compare, position]
  | «at» num den =>
      cases right with
      | below => simp [compare, position]
      | above => simp [compare, position]
      | «at» otherNum otherDen =>
          rw [position, position, Position.number.injEq,
            Rat.mkRat_eq_iff leftProper rightProper]
          simp [compare]

end Binary64.Place

namespace Scalar

/-- What a key is recognised by. -/
inductive Face
  | null
  | text (content : String)
  | moment (kind : Nat) (position : Int)
  | number (position : Binary64.Position)

/-- The face that a scalar shows; one that is not a number shows none. -/
def face? : Scalar → Option Face
  | .null => some .null
  | .text content => some (.text content)
  | .moment instant => some (.moment instant.kind instant.position)
  | number => number.place?.map fun place => .number place.position

theorem proper_of_place? {scalar : Scalar} {place : Binary64.Place}
    (found : scalar.place? = some place) : place.Proper := by
  cases scalar with
  | bool truth =>
      cases found
      exact Nat.one_ne_zero
  | int number =>
      cases found
      exact Nat.one_ne_zero
  | float number =>
      cases number with
      | finite negative mantissa exponent =>
          cases found
          exact Nat.ne_of_gt (Nat.pow_pos Nat.two_pos)
      | infinite negative => cases negative <;> cases found <;> trivial
      | nan => cases found
  | null => cases found
  | text content => cases found
  | moment instant => cases found

theorem face?_of_place {scalar : Scalar} {place : Binary64.Place}
    (found : scalar.place? = some place) : scalar.face? = some (.number place.position) := by
  cases scalar with
  | null => cases found
  | text content => cases found
  | moment instant => cases found
  | bool truth => simp only [face?, found, Option.map_some]
  | int number => simp only [face?, found, Option.map_some]
  | float number => simp only [face?, found, Option.map_some]

theorem same_of_places {left right : Scalar} {one other : Binary64.Place}
    (leftPlace : left.place? = some one) (rightPlace : right.place? = some other) :
    left.same right = (one.compare other == .eq) := by
  unfold same
  split
  · cases leftPlace
  · cases leftPlace
  · cases leftPlace
  · rw [leftPlace, rightPlace]

/-- Keys are the same exactly if they show the same face. -/
theorem same_iff {left right : Scalar} :
    left.same right = true ↔ ∃ face, left.face? = some face ∧ right.face? = some face := by
  cases leftPlace : left.place? with
  | some one =>
      cases rightPlace : right.place? with
      | some other =>
          rw [same_of_places leftPlace rightPlace, face?_of_place leftPlace,
            face?_of_place rightPlace, Binary64.Place.compare_eq_iff
              (proper_of_place? leftPlace) (proper_of_place? rightPlace)]
          simp [eq_comm]
      | none =>
          rw [face?_of_place leftPlace]
          cases right <;> cases left <;> simp_all [same, face?, place?]
  | none =>
      cases left with
      | bool truth => cases leftPlace
      | int number => cases leftPlace
      | float number => cases right <;> simp [same, face?, leftPlace]
      | null => cases right <;> simp [same, face?, place?]
      | text content =>
          cases right with
          | text other => simp [same, face?, eq_comm (a := content)]
          | _ => simp [same, face?, place?]
      | moment instant =>
          cases right with
          | moment other =>
              simp [same, face?, eq_comm (a := instant.kind), eq_comm (a := instant.position)]
          | _ => simp [same, face?, place?]

/-- Keys that are the same are alike in every comparison. -/
theorem same_congr {left right : Scalar} (same : left.same right = true) (key : Scalar) :
    key.same left = key.same right := by
  obtain ⟨face, leftShows, rightShows⟩ := same_iff.mp same
  rw [Bool.eq_iff_iff, same_iff, same_iff, leftShows, rightShows]

theorem same_congr_left {left right : Scalar} (same : left.same right = true) (key : Scalar) :
    left.same key = right.same key := by
  obtain ⟨face, leftShows, rightShows⟩ := same_iff.mp same
  rw [Bool.eq_iff_iff, same_iff, same_iff, leftShows, rightShows]

end Scalar

namespace Value

variable {key wanted : Scalar} {value : Value} {entries : List (Scalar × Value)}

theorem find?_cons_of_same {present : Scalar} (same : present.same key = true) (part : Value)
    (entries : List (Scalar × Value)) : find? key ((present, part) :: entries) = some part := by
  simp [find?, same]

theorem find?_cons_of_other {present : Scalar} (other : ¬ present.same key = true) (part : Value)
    (entries : List (Scalar × Value)) :
    find? key ((present, part) :: entries) = find? key entries := by
  simp [find?, other]

/-- A record holds one value under keys that are the same. -/
theorem find?_congr (same : key.same wanted = true) (entries : List (Scalar × Value)) :
    find? key entries = find? wanted entries := by
  unfold find?
  simp only [Scalar.same_congr same]

/-- A value that is put under a key is found under the keys that are the same, and nothing else
changes. -/
theorem find?_put_of_same (same : key.same wanted = true) (value : Value)
    (entries : List (Scalar × Value)) : find? wanted (put key value entries) = some value := by
  induction entries with
  | nil => exact find?_cons_of_same same value []
  | cons entry entries induction =>
      obtain ⟨present, old⟩ := entry
      rw [put]
      by_cases known : present.same key = true
      · rw [if_pos known]
        exact find?_cons_of_same (Scalar.same_congr same present ▸ known) value entries
      · rw [if_neg known, find?_cons_of_other (Scalar.same_congr same present ▸ known)]
        exact induction

theorem find?_put_of_other (other : ¬ key.same wanted = true) (value : Value)
    (entries : List (Scalar × Value)) :
    find? wanted (put key value entries) = find? wanted entries := by
  induction entries with
  | nil => exact find?_cons_of_other other value []
  | cons entry entries induction =>
      obtain ⟨present, old⟩ := entry
      rw [put]
      by_cases known : present.same key = true
      · have different : ¬ present.same wanted = true := by
          rw [Scalar.same_congr_left known]
          exact other
        rw [if_pos known, find?_cons_of_other different, find?_cons_of_other different]
      · rw [if_neg known]
        by_cases here : present.same wanted = true
        · rw [find?_cons_of_same here, find?_cons_of_same here]
        · rw [find?_cons_of_other here, find?_cons_of_other here]
          exact induction

/-- Putting a value where it is changes nothing. -/
theorem put_of_find? (found : find? key entries = some value) : put key value entries = entries := by
  induction entries with
  | nil => cases found
  | cons entry entries induction =>
      obtain ⟨present, old⟩ := entry
      rw [put]
      by_cases known : present.same key = true
      · rw [find?_cons_of_same known] at found
        rw [if_pos known, Option.some.inj found]
      · rw [find?_cons_of_other known] at found
        rw [if_neg known, induction found]

end Value

end ApiCensus
