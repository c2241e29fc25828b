import ApiCensus.Json.Reader
import ApiCensus.Proofs.Outcome
import Mathlib.Data.List.Nodup

/-!
# Keys of the records of a JSON text

The records of a JSON text are keyed by texts, and no key occurs twice in a
record: a repeated key replaces the value of its first occurrence.  An index that
was read from a text therefore has at most one entry for each identifier.
-/

namespace ApiCensus

/-- All records inside the value are keyed by texts, each key once. -/
inductive Value.TextKeyed : Value → Prop
  | scalar (content : Scalar) : TextKeyed (.scalar content)
  | list {elements : List Value} :
      (∀ element ∈ elements, TextKeyed element) → TextKeyed (.list elements)
  | record {entries : List (Scalar × Value)} (names : List String) :
      entries.map (·.1) = names.map Scalar.text → names.Nodup →
      (∀ entry ∈ entries, TextKeyed entry.2) → TextKeyed (.record entries)

namespace Value

theorem put_text {names : List String} {entries : List (Scalar × Value)}
    (keys : entries.map (·.1) = names.map Scalar.text) (name : String) (value : Value) :
    (put (.text name) value entries).map (·.1) =
      (if name ∈ names then names else names ++ [name]).map Scalar.text := by
  induction entries generalizing names with
  | nil =>
      cases names with
      | nil => rfl
      | cons first names => cases keys
  | cons entry entries induction =>
      cases names with
      | nil => cases keys
      | cons first names =>
          obtain ⟨key, old⟩ := entry
          simp only [List.map_cons, List.cons.injEq] at keys
          obtain ⟨rfl, keys⟩ := keys
          by_cases same : first = name
          · subst same
            simp [put, Scalar.same, keys]
          · have different : (Scalar.text first).same (.text name) = false := by
              simp [Scalar.same, same]
            have rest := induction keys
            by_cases later : name ∈ names
            · rw [if_pos later] at rest
              simp [put, different, later, rest]
            · rw [if_neg later] at rest
              have unequal : name ≠ first := Ne.symm same
              simp [put, different, later, unequal, rest]

theorem mem_of_mem_put {key : Scalar} {value : Value} {entries : List (Scalar × Value)}
    {entry : Scalar × Value} (member : entry ∈ put key value entries) :
    entry.2 = value ∨ entry ∈ entries := by
  induction entries with
  | nil =>
      rw [put, List.mem_singleton] at member
      subst member
      exact .inl rfl
  | cons first entries induction =>
      obtain ⟨present, old⟩ := first
      rw [put] at member
      split at member
      · rcases List.mem_cons.mp member with rfl | later
        · exact .inl rfl
        · exact .inr (List.mem_cons_of_mem _ later)
      · rcases List.mem_cons.mp member with rfl | later
        · exact .inr List.mem_cons_self
        · rcases induction later with new | known
          · exact .inl new
          · exact .inr (List.mem_cons_of_mem _ known)

/-- Putting a value under a text keeps the keys of a record distinct texts. -/
theorem TextKeyed.put {entries : List (Scalar × Value)} (keyed : TextKeyed (.record entries))
    (name : String) {value : Value} (valueKeyed : TextKeyed value) :
    TextKeyed (.record (Value.put (.text name) value entries)) := by
  cases keyed with
  | record names keys distinct parts =>
      refine .record _ (put_text keys name value) ?_ ?_
      · split
        · exact distinct
        · rename_i absent
          rw [← List.concat_eq_append]
          exact List.Nodup.concat absent distinct
      · intro entry member
        rcases mem_of_mem_put member with new | known
        · rw [new]
          exact valueKeyed
        · exact parts entry known

theorem TextKeyed.get {value : Value} (keyed : TextKeyed value) (name : String) :
    TextKeyed (value.get name) := by
  unfold Value.get Value.get?
  cases keyed with
  | scalar content => exact .scalar _
  | list elements => exact .scalar _
  | @record entries names keys distinct parts =>
      simp only [find?]
      cases found : entries.find? fun entry => entry.1.same (.text name) with
      | none => exact .scalar _
      | some entry => exact parts entry (List.mem_of_find?_eq_some found)

theorem TextKeyed.mem_keys {entries : List (Scalar × Value)} (keyed : TextKeyed (.record entries))
    {entry : Scalar × Value} (member : entry ∈ entries) : entry.1 = .text entry.1.toText := by
  cases keyed with
  | record names keys _ _ =>
      have isKey : entry.1 ∈ names.map Scalar.text := keys ▸ List.mem_map_of_mem member
      obtain ⟨name, _, same⟩ := List.mem_map.mp isKey
      rw [← same]
      rfl

theorem TextKeyed.nodup_keys {entries : List (Scalar × Value)}
    (keyed : TextKeyed (.record entries)) : (entries.map (·.1.toText)).Nodup := by
  cases keyed with
  | record names keys distinct _ =>
      have texts : entries.map (·.1.toText) = names := by
        calc
          entries.map (·.1.toText) = (entries.map (·.1)).map Scalar.toText := by simp
          _ = (names.map Scalar.text).map Scalar.toText := by rw [keys]
          _ = names := by simp [Scalar.toText, Function.comp_def]
      rw [texts]
      exact distinct

/-- The part under a name is the only one that the record has there. -/
theorem TextKeyed.get?_eq_some_iff {entries : List (Scalar × Value)}
    (keyed : TextKeyed (.record entries)) {name : String} {value : Value} :
    (Value.record entries).get? name = some value ↔ (.text name, value) ∈ entries := by
  constructor
  · intro found
    obtain ⟨entry, entryFound, rfl⟩ := Option.map_eq_some_iff.mp found
    have member := List.mem_of_find?_eq_some entryFound
    have same := List.find?_some entryFound
    have isText := keyed.mem_keys member
    rw [isText] at same
    have sameName : entry.1.toText = name := by simpa [Scalar.same] using same
    rw [sameName] at isText
    rw [← isText]
    exact member
  · intro member
    have distinct : (entries.map (·.1)).Nodup := by
      cases keyed with
      | record names keys distinct _ =>
          rw [keys]
          exact distinct.map fun _ _ same => Scalar.text.inj same
    have matched : (Scalar.text name).same (.text name) = true := by simp [Scalar.same]
    obtain ⟨before, after, rfl⟩ := List.append_of_mem member
    have skipped : before.find? (fun entry => entry.1.same (.text name)) = none := by
      apply List.find?_eq_none.mpr
      intro entry inside same
      have isText := keyed.mem_keys (List.mem_append_left _ inside)
      rw [isText] at same
      have sameName : entry.1.toText = name := by simpa [Scalar.same] using same
      rw [List.map_append, List.nodup_append] at distinct
      refine distinct.2.2 entry.1 (List.mem_map_of_mem inside) (.text name) (by simp) ?_
      rw [isText, sameName]
    simp [get?, find?, List.find?_append, skipped, matched]

theorem TextKeyed.has_iff {entries : List (Scalar × Value)} (keyed : TextKeyed (.record entries))
    {name : String} :
    (Value.record entries).has name = true ↔ name ∈ entries.map (·.1.toText) := by
  unfold has
  rw [Option.isSome_iff_exists]
  constructor
  · rintro ⟨value, found⟩
    exact List.mem_map.mpr ⟨_, keyed.get?_eq_some_iff.mp found, rfl⟩
  · intro member
    obtain ⟨entry, inside, rfl⟩ := List.mem_map.mp member
    refine ⟨entry.2, keyed.get?_eq_some_iff.mpr ?_⟩
    rw [← keyed.mem_keys inside]
    exact inside

end Value

namespace Json

theorem words_textKeyed {word : String × Value} (member : word ∈ words) :
    word.2.TextKeyed := by
  simp only [words, List.mem_cons, List.not_mem_nil, or_false] at member
  rcases member with rfl | rfl | rfl | rfl | rfl | rfl <;> exact .scalar _

theorem readNumber_textKeyed {chars rest : List Char} {value : Value}
    (success : readNumber chars = .ok (value, rest)) : value.TextKeyed := by
  unfold readNumber at success
  dsimp only at success
  split at success
  · cases success
  · split at success
    · split at success
      · cases success
      · cases success
        exact .scalar _
    · cases success
      exact .scalar _

theorem readAtom_textKeyed {chars rest : List Char} {value : Value}
    (success : readAtom chars = .ok (value, rest)) : value.TextKeyed := by
  unfold readAtom at success
  dsimp only at success
  split at success
  · rename_i result found
    cases success
    obtain ⟨word, member, matched⟩ := List.exists_of_findSome?_eq_some found
    obtain ⟨after, _, same⟩ := Option.map_eq_some_iff.mp matched
    cases same
    exact words_textKeyed member
  · exact readNumber_textKeyed success

section

variable {fuel depth : Nat} {chars rest : List Char} {value : Value}

theorem readValue_textKeyed_succ
    (elementsKeyed : ∀ depth done chars value rest, (∀ element ∈ done, element.TextKeyed) →
      readElements fuel depth done chars = .ok (value, rest) → value.TextKeyed)
    (entriesKeyed : ∀ depth done chars value rest, Value.TextKeyed (.record done) →
      readEntries fuel depth done chars = .ok (value, rest) → value.TextKeyed)
    (success : readValue (fuel + 1) depth chars = .ok (value, rest)) : value.TextKeyed := by
  unfold readValue at success
  split at success
  · obtain ⟨_, _, same⟩ := Outcome.bind_eq_ok_iff.mp success
    cases same
    exact .scalar _
  · split at success
    · cases success
    · cases success
      exact .list (by simp)
    · exact elementsKeyed _ _ _ _ _ (by simp) success
  · split at success
    · cases success
    · cases success
      exact .record [] rfl .nil (by simp)
    · exact entriesKeyed _ _ _ _ _ (.record [] rfl .nil (by simp)) success
  · exact readAtom_textKeyed success

theorem readElements_textKeyed_succ
    (valueKeyed : ∀ depth chars value rest, readValue fuel depth chars = .ok (value, rest) →
      value.TextKeyed)
    (elementsKeyed : ∀ depth done chars value rest, (∀ element ∈ done, element.TextKeyed) →
      readElements fuel depth done chars = .ok (value, rest) → value.TextKeyed)
    {done : List Value} (doneKeyed : ∀ element ∈ done, element.TextKeyed)
    (success : readElements (fuel + 1) depth done chars = .ok (value, rest)) :
    value.TextKeyed := by
  unfold readElements at success
  obtain ⟨⟨first, after⟩, firstOk, restOk⟩ := Outcome.bind_eq_ok_iff.mp success
  dsimp only at restOk
  have extended : ∀ element ∈ first :: done, element.TextKeyed :=
    List.forall_mem_cons.mpr ⟨valueKeyed _ _ _ _ firstOk, doneKeyed⟩
  split at restOk
  · cases restOk
    exact .list fun element member => extended element (List.mem_reverse.mp member)
  · exact elementsKeyed _ _ _ _ _ extended restOk
  · cases restOk

theorem readEntries_textKeyed_succ
    (valueKeyed : ∀ depth chars value rest, readValue fuel depth chars = .ok (value, rest) →
      value.TextKeyed)
    (entriesKeyed : ∀ depth done chars value rest, Value.TextKeyed (.record done) →
      readEntries fuel depth done chars = .ok (value, rest) → value.TextKeyed)
    {done : List (Scalar × Value)} (doneKeyed : Value.TextKeyed (.record done))
    (success : readEntries (fuel + 1) depth done chars = .ok (value, rest)) :
    value.TextKeyed := by
  unfold readEntries at success
  split at success
  · obtain ⟨⟨name, after⟩, _, success⟩ := Outcome.bind_eq_ok_iff.mp success
    dsimp only at success
    split at success
    · obtain ⟨⟨part, remaining⟩, partOk, success⟩ := Outcome.bind_eq_ok_iff.mp success
      dsimp only at success
      have extended := doneKeyed.put name (valueKeyed _ _ _ _ partOk)
      split at success
      · cases success
        exact extended
      · exact entriesKeyed _ _ _ _ _ extended success
      · cases success
    · cases success
  · cases success

end

/-- What the three mutually recursive readers return is keyed by texts, whatever
the fuel and the room for brackets: the readers of elements and entries keep the
property of what they have collected so far. -/
theorem readers_textKeyed (fuel : Nat) :
    (∀ depth chars value rest, readValue fuel depth chars = .ok (value, rest) → value.TextKeyed) ∧
    (∀ depth done chars value rest, (∀ element ∈ done, element.TextKeyed) →
      readElements fuel depth done chars = .ok (value, rest) → value.TextKeyed) ∧
    (∀ depth done chars value rest, Value.TextKeyed (.record done) →
      readEntries fuel depth done chars = .ok (value, rest) → value.TextKeyed) := by
  induction fuel with
  | zero =>
      refine ⟨?_, ?_, ?_⟩
      · intro depth chars value rest success
        simp [readValue] at success
      · intro depth done chars value rest _ success
        simp [readElements] at success
      · intro depth done chars value rest _ success
        simp [readEntries] at success
  | succ fuel induction =>
      obtain ⟨valueKeyed, elementsKeyed, entriesKeyed⟩ := induction
      refine ⟨?_, ?_, ?_⟩
      · intro depth chars value rest
        exact readValue_textKeyed_succ elementsKeyed entriesKeyed
      · intro depth done chars value rest
        exact readElements_textKeyed_succ valueKeyed elementsKeyed
      · intro depth done chars value rest
        exact readEntries_textKeyed_succ valueKeyed entriesKeyed

/-- A value that was read from a JSON text is keyed by texts. -/
theorem read_textKeyed {text : String} {value : Value} (success : read text = .ok value) :
    value.TextKeyed := by
  unfold read at success
  dsimp only at success
  split at success
  · rename_i found readOk
    cases success
    unfold readChars at readOk
    split at readOk
    · cases readOk
    · obtain ⟨⟨first, rest⟩, firstOk, success⟩ := Outcome.bind_eq_ok_iff.mp readOk
      dsimp only at success
      split at success
      · cases success
        exact (readers_textKeyed _).1 _ _ _ _ firstOk
      · cases success
  · cases success
  · cases success
  · cases success

end Json

end ApiCensus
