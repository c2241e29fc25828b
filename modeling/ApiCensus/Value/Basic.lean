import ApiCensus.Number.Shortest
import ApiCensus.Text.Quoted
import ApiCensus.Value.Moment

/-!
# Data values

The values that index documents and configuration files are made of: scalars,
lists, and records that keep their entries in order.  Keys of records are
scalars; those of a JSON document are always texts.

A document may have any shape, so a part that is asked for may be missing or of
the wrong kind.  `ShapeError` names what a value did not allow.
-/

namespace ApiCensus

/-- A value without parts. -/
inductive Scalar
  | null
  | bool (truth : Bool)
  | int (number : Int)
  | float (number : Binary64)
  | text (content : String)
  | moment (instant : Moment)
deriving DecidableEq, Repr

/-- A scalar, a list of values or a record of named values. -/
inductive Value
  | scalar (content : Scalar)
  | list (elements : List Value)
  | record (entries : List (Scalar × Value))
deriving Repr

/-- What a value does not allow because of its shape. -/
inductive ShapeError
  /-- A named part was asked of a value that has none. -/
  | noParts
  /-- The value cannot be run through, compared or kept in a set. -/
  | unsuited
  /-- A record or a table lacks a key. -/
  | missingKey
  /-- A row is too short. -/
  | missingPosition
deriving DecidableEq, Repr

namespace Scalar

/-- The place of a number, truth values counting as 0 and 1. -/
def place? : Scalar → Option Binary64.Place
  | .bool truth => some (.at (if truth then 1 else 0) 1)
  | .int number => some (.at number 1)
  | .float number => number.place?
  | _ => none

/-- Equality of keys and of set members: numbers are equal by value, whatever
their kind. -/
def same (left right : Scalar) : Bool :=
  match left, right with
  | .null, .null => true
  | .text one, .text other => one == other
  | .moment one, .moment other => one.kind == other.kind && one.position == other.position
  | _, _ =>
      match left.place?, right.place? with
      | some one, some other => one.compare other == .eq
      | _, _ => false

/-- Null, false, zero and the empty text count as absent. -/
def isTruthy : Scalar → Bool
  | .null => false
  | .bool truth => truth
  | .int number => number != 0
  | .float number => number.isNonzero
  | .text content => !content.isEmpty
  | .moment _ => true

/-- The text of a scalar. -/
def toText : Scalar → String
  | .null => "None"
  | .bool truth => if truth then "True" else "False"
  | .int number => toString number
  | .float number => number.text
  | .text content => content
  | .moment instant => instant.text

/-- The text of a scalar inside a list or a message: a text is quoted. -/
def toQuoted : Scalar → String
  | .text content => Text.quoted content
  | other => other.toText

end Scalar

namespace Value

mutual

/-- Whether two values are equal. -/
def decEq : (left right : Value) → Decidable (left = right)
  | .scalar one, .scalar other => decidable_of_iff (one = other) (by simp)
  | .list ones, .list others => @decidable_of_iff _ (ones = others) (by simp) (decEqList ones others)
  | .record ones, .record others =>
      @decidable_of_iff _ (ones = others) (by simp) (decEqEntries ones others)
  | .scalar _, .list _ | .scalar _, .record _ | .list _, .scalar _ | .list _, .record _
  | .record _, .scalar _ | .record _, .list _ => isFalse (by simp)

/-- Whether two lists of values are equal. -/
def decEqList : (left right : List Value) → Decidable (left = right)
  | [], [] => isTrue rfl
  | [], _ :: _ | _ :: _, [] => isFalse (by simp)
  | one :: ones, other :: others =>
      match decEq one other, decEqList ones others with
      | isTrue first, isTrue rest => isTrue (by rw [first, rest])
      | isFalse first, _ => isFalse fun same => first (List.cons.inj same).1
      | _, isFalse rest => isFalse fun same => rest (List.cons.inj same).2

/-- Whether two lists of entries are equal. -/
def decEqEntries : (left right : List (Scalar × Value)) → Decidable (left = right)
  | [], [] => isTrue rfl
  | [], _ :: _ | _ :: _, [] => isFalse (by simp)
  | (key, one) :: ones, (otherKey, other) :: others =>
      match decEq one other, decEqEntries ones others with
      | isTrue first, isTrue rest => decidable_of_iff (key = otherKey) (by simp [first, rest])
      | isFalse first, _ => isFalse (by simp [first])
      | _, isFalse rest => isFalse (by simp [rest])

end

instance : DecidableEq Value := decEq

/-- The absent value. -/
@[match_pattern] abbrev null : Value := .scalar .null

/-- A truth value. -/
@[match_pattern] abbrev bool (truth : Bool) : Value := .scalar (.bool truth)

/-- An integer. -/
@[match_pattern] abbrev int (number : Int) : Value := .scalar (.int number)

/-- A double-precision number. -/
@[match_pattern] abbrev float (number : Binary64) : Value := .scalar (.float number)

/-- A text. -/
@[match_pattern] abbrev text (content : String) : Value := .scalar (.text content)

/-- A record whose keys are texts. -/
def ofFields (fields : List (String × Value)) : Value :=
  .record (fields.map fun (name, value) => (.text name, value))

/-- Null, false, zero and everything empty count as absent. -/
def isTruthy : Value → Bool
  | .scalar content => content.isTruthy
  | .list elements => !elements.isEmpty
  | .record entries => !entries.isEmpty

/-- The value, or another one in place of an absent value. -/
def orElse (value other : Value) : Value :=
  if value.isTruthy then value else other

/-- Whether the value is null. -/
def isNull : Value → Bool
  | .null => true
  | _ => false

/-- Whether the value is a record. -/
def isRecord : Value → Bool
  | .record _ => true
  | _ => false

/-- Whether the value is a list. -/
def isList : Value → Bool
  | .list _ => true
  | _ => false

/-- The entry under a key. -/
def find? (key : Scalar) (entries : List (Scalar × Value)) : Option Value :=
  (entries.find? fun entry => entry.1.same key).map (·.2)

/-- The part of a record under a name. -/
def get? (value : Value) (name : String) : Option Value :=
  match value with
  | .record entries => find? (.text name) entries
  | _ => none

/-- The part of a record under a name, null if there is none. -/
def get (value : Value) (name : String) : Value :=
  (value.get? name).getD null

/-- Whether a record has a part under a name. -/
def has (value : Value) (name : String) : Bool :=
  (value.get? name).isSome

/-- The value as a record with named parts. -/
def asRecord (value : Value) : Except ShapeError Value :=
  if value.isRecord then .ok value else .error .noParts

theorem isRecord_of_get? {value part : Value} {name : String}
    (found : value.get? name = some part) : value.isRecord = true := by
  cases value with
  | record entries => rfl
  | _ => cases found

theorem get_of_get? {value part : Value} {name : String} (found : value.get? name = some part) :
    value.get name = part := by
  rw [get, found]
  rfl

theorem orElse_empty {value : Value} (isRecord : value.isRecord = true) :
    value.orElse (.record []) = value := by
  cases value with
  | record entries => cases entries <;> rfl
  | _ => cases isRecord

theorem asRecord_of_isRecord {value : Value} (isRecord : value.isRecord = true) :
    value.asRecord = .ok value :=
  if_pos isRecord

/-- The values met by running through a value: the elements of a list, the keys
of a record, the characters of a text. -/
def members : Value → Except ShapeError (List Value)
  | .list elements => .ok elements
  | .record entries => .ok (entries.map fun entry => .scalar entry.1)
  | .text content => .ok (content.toList.map fun c => .text c.toString)
  | _ => .error .unsuited

/-- The values of a list that is run through for its structured elements. The
keys of a record and the characters of a text have no structure, so these count
as empty. -/
def parts : Value → Except ShapeError (List Value)
  | .list elements => .ok elements
  | .record _ => .ok []
  | .text _ => .ok []
  | _ => .error .unsuited

/-- Put a value under a key: in place of the value that is there, else last. -/
def put (key : Scalar) (value : Value) : List (Scalar × Value) → List (Scalar × Value)
  | [] => [(key, value)]
  | (present, old) :: rest =>
      if present.same key then (present, value) :: rest
      else (present, old) :: put key value rest

mutual

/-- The text of a value inside a list or a message. -/
def toQuoted : Value → String
  | .scalar content => content.toQuoted
  | .list elements => "[" ++ ", ".intercalate (toQuotedList elements) ++ "]"
  | .record entries => "\x7b" ++ ", ".intercalate (toQuotedEntries entries) ++ "\x7d"

/-- The quoted texts of the elements of a list. -/
def toQuotedList : List Value → List String
  | [] => []
  | value :: rest => value.toQuoted :: toQuotedList rest

/-- The quoted texts of the entries of a record. -/
def toQuotedEntries : List (Scalar × Value) → List String
  | [] => []
  | (key, value) :: rest => (key.toQuoted ++ ": " ++ value.toQuoted) :: toQuotedEntries rest

end

/-- The text of a value: a text stands for itself, inside of lists and records it
is quoted. -/
def toText : Value → String
  | .text content => content
  | other => other.toQuoted

theorem toQuotedList_eq_map (elements : List Value) :
    toQuotedList elements = elements.map toQuoted := by
  induction elements with
  | nil => simp [toQuotedList]
  | cons value rest ih => simp [toQuotedList, ih]

theorem toQuotedEntries_eq_map (entries : List (Scalar × Value)) :
    toQuotedEntries entries =
      entries.map fun entry => entry.1.toQuoted ++ ": " ++ entry.2.toQuoted := by
  induction entries with
  | nil => simp [toQuotedEntries]
  | cons entry rest ih => simp [toQuotedEntries, ih]

/-- No value is smaller than two. -/
theorem two_le_sizeOf (value : Value) : 2 ≤ sizeOf value := by
  cases value with
  | scalar content =>
      cases content <;> simp only [scalar.sizeOf_spec, Scalar.null.sizeOf_spec,
        Scalar.bool.sizeOf_spec, Scalar.int.sizeOf_spec, Scalar.float.sizeOf_spec,
        Scalar.text.sizeOf_spec, Scalar.moment.sizeOf_spec] <;> omega
  | list elements =>
      cases elements <;> simp only [list.sizeOf_spec, List.nil.sizeOf_spec,
        List.cons.sizeOf_spec] <;> omega
  | record entries =>
      cases entries <;> simp only [record.sizeOf_spec, List.nil.sizeOf_spec,
        List.cons.sizeOf_spec] <;> omega

private theorem sizeOf_snd_lt_of_mem {entry : Scalar × Value} {entries : List (Scalar × Value)}
    (member : entry ∈ entries) : sizeOf entry.2 < sizeOf entries := by
  have bound := List.sizeOf_lt_of_mem member
  cases entry
  simp at bound ⊢
  omega

/-- A part of a record is no larger than the record. -/
theorem sizeOf_get_le (value : Value) (name : String) : sizeOf (value.get name) ≤ sizeOf value := by
  have small : sizeOf (null : Value) ≤ sizeOf value := two_le_sizeOf value
  cases value with
  | scalar content => exact small
  | list elements => exact small
  | record entries =>
      simp only [get, get?, find?]
      cases found : entries.find? fun entry => entry.1.same (.text name) with
      | none => exact small
      | some entry =>
          have bound := sizeOf_snd_lt_of_mem (List.mem_of_find?_eq_some found)
          simp
          omega

/-- The parts of a value are smaller than the value. -/
theorem sizeOf_lt_of_parts_eq_ok {value : Value} {elements : List Value}
    (parts : value.parts = .ok elements) : sizeOf elements < sizeOf value := by
  unfold Value.parts at parts
  split at parts
  · cases parts
    simp only [list.sizeOf_spec]
    omega
  · cases parts
    exact two_le_sizeOf _
  · cases parts
    exact two_le_sizeOf _
  · cases parts

end Value

end ApiCensus
