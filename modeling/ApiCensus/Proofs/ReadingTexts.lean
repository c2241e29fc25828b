import ApiCensus.Json.Reader
import ApiCensus.Proofs.Outcome

/-!
# Reading JSON texts

Reading goes forward: what a reader leaves is the end of what it was given.  There is no room for
a bracket only if more brackets have been opened than may be open at once, and a text that starts
with so many is not read.  Texts and records that are written without blanks and escapes are read
as they are written.
-/

namespace ApiCensus.Json

/-! ### Brackets -/

/-- How many brackets are opened. -/
def openings (chars : List Char) : Nat :=
  chars.countP fun c => c = '[' || c = '\x7b'

/-- A reader leaves the end of what it was given, and it lacks room only if more brackets are
opened than the limit says. -/
def Reads {α : Type} (limit : Nat) (chars : List Char) : Except Stop (α × List Char) → Prop
  | .ok (_, rest) => rest <:+ chars
  | .error .tooDeep => limit < openings chars
  | .error _ => True

section

variable {α β : Type} {limit : Nat} {chars rest : List Char} {outcome : Except Stop (α × List Char)}

theorem openings_le (suffix : rest <:+ chars) : openings rest ≤ openings chars :=
  suffix.sublist.countP_le

theorem Reads.mono (reads : Reads limit rest outcome) (suffix : rest <:+ chars) :
    Reads limit chars outcome := by
  rcases outcome with (_ | _ | _) | ⟨_, after⟩
  · trivial
  · trivial
  · exact Nat.lt_of_lt_of_le reads (openings_le suffix)
  · exact List.IsSuffix.trans reads suffix

theorem Reads.bind {next : α × List Char → Except Stop (β × List Char)}
    (reads : Reads limit chars outcome)
    (continues : ∀ value rest, rest <:+ chars → Reads limit rest (next (value, rest))) :
    Reads limit chars (outcome >>= next) := by
  rcases outcome with (_ | _ | _) | ⟨value, after⟩
  · trivial
  · trivial
  · exact reads
  · exact (continues value after reads).mono reads

/-- Behind a bracket there is room for one less. -/
theorem Reads.opened {bracket : Char} (opens : bracket = '[' ∨ bracket = '\x7b')
    (reads : Reads limit rest outcome) : Reads (limit + 1) (bracket :: rest) outcome := by
  rcases outcome with (_ | _ | _) | ⟨_, after⟩
  · trivial
  · trivial
  · have more : openings (bracket :: rest) = openings rest + 1 := by
      rcases opens with rfl | rfl <;> simp [openings]
    rw [Reads, more]
    exact Nat.succ_lt_succ reads
  · exact List.IsSuffix.trans reads (List.suffix_cons bracket rest)

end

/-! ### Atoms -/

theorem skipSpace_suffix (chars : List Char) : skipSpace chars <:+ chars :=
  List.dropWhile_suffix _

/-- What follows the first character behind blanks. -/
theorem suffix_of_skipSpace {c : Char} {chars rest : List Char}
    (next : skipSpace chars = c :: rest) : rest <:+ chars := by
  have behind := skipSpace_suffix chars
  rw [next] at behind
  exact (List.suffix_cons c rest).trans behind

theorem dropWord?_suffix {word chars rest : List Char} (found : dropWord? word chars = some rest) :
    rest <:+ chars := by
  induction word generalizing chars with
  | nil => cases found; exact List.suffix_refl _
  | cons expected word induction =>
      cases chars with
      | nil => cases found
      | cons c chars =>
          rw [dropWord?] at found
          split at found
          · exact (induction found).trans (List.suffix_cons c chars)
          · cases found

theorem readUnit?_suffix {chars rest : List Char} {code : Nat}
    (found : readUnit? chars = some (code, rest)) : rest <:+ chars := by
  unfold readUnit? at found
  split at found
  · obtain ⟨_, _, same⟩ := Option.map_eq_some_iff.mp found
    cases same
    exact ⟨[_, _, _, _], rfl⟩
  · cases found

theorem readPartner_suffix {chars rest : List Char} {code : Nat}
    (found : readPartner chars = .ok (some (code, rest))) : rest <:+ chars := by
  unfold readPartner at found
  split at found
  · split at found
    · cases found
    · split at found
      · cases found
        exact ⟨[_, _, _, _, _, _], rfl⟩
      · cases found
  · cases found

theorem readPartner_ne_tooDeep (chars : List Char) : readPartner chars ≠ .error .tooDeep := by
  unfold readPartner
  split
  · split
    · exact nofun
    · split <;> exact nofun
  · exact nofun

theorem reads_unicodeEscape (limit : Nat) (chars : List Char) :
    Reads limit chars (readUnicodeEscape chars) := by
  unfold readUnicodeEscape
  split
  · trivial
  · rename_i code rest found
    have inside : rest <:+ chars := (readUnit?_suffix found).trans (List.drop_suffix 1 chars)
    split
    · cases partner : readPartner rest with
      | error cause =>
          cases cause with
          | fault => trivial
          | integer => trivial
          | tooDeep => exact absurd partner (readPartner_ne_tooDeep rest)
      | ok result =>
          cases result with
          | none => exact inside
          | some pair => exact (readPartner_suffix partner).trans inside
    · exact inside

theorem reads_string (limit : Nat) (start : List Char) (fuel : Nat) (done chars : List Char) :
    Reads limit chars (readString start fuel done chars) := by
  induction fuel generalizing done chars with
  | zero => trivial
  | succ fuel induction =>
      unfold readString
      split
      · trivial
      · exact List.suffix_cons _ _
      · split
        · trivial
        · refine Reads.mono (Reads.bind (reads_unicodeEscape limit _) ?_) (List.suffix_cons _ _)
          intro c rest _
          exact induction _ _
        · split
          · exact (induction _ _).mono ⟨[_, _], rfl⟩
          · trivial
      · split
        · trivial
        · exact (induction _ _).mono (List.suffix_cons _ _)

theorem spanWhole?_suffix {chars digits rest : List Char}
    (found : spanWhole? chars = some (digits, rest)) : rest <:+ chars := by
  unfold spanWhole? at found
  split at found
  · cases found
    exact List.suffix_cons _ _
  · dsimp only [spanDigits] at found
    split at found
    · cases found
    · cases found
      exact List.dropWhile_suffix _

theorem spanFraction_suffix (chars : List Char) : (spanFraction chars).2 <:+ chars := by
  unfold spanFraction
  split
  · dsimp only [spanDigits]
    split
    · exact List.suffix_refl _
    · exact (List.dropWhile_suffix _).trans (List.suffix_cons _ _)
  · exact List.suffix_refl _

theorem spanExponent?_suffix {chars rest : List Char} {power : Int}
    (found : spanExponent? chars = some (power, rest)) : rest <:+ chars := by
  unfold spanExponent? at found
  split at found
  · cases found
  · rename_i mark after
    split at found
    · dsimp only [spanDigits] at found
      split at found
      · cases found
      · cases found
        have unsigned : (Number.takeSign after).2 <:+ after := by
          unfold Number.takeSign
          split
          · exact List.suffix_cons _ _
          · exact List.suffix_cons _ _
          · exact List.suffix_refl _
        exact (List.dropWhile_suffix _).trans (unsigned.trans (List.suffix_cons _ _))
    · cases found

theorem reads_number (limit : Nat) (chars : List Char) : Reads limit chars (readNumber chars) := by
  unfold readNumber
  dsimp only
  split
  · trivial
  · rename_i whole rest found
    have inside : (spanFraction rest).2 <:+ chars := by
      refine (spanFraction_suffix rest).trans ((spanWhole?_suffix found).trans ?_)
      split
      · exact List.suffix_cons _ _
      · exact List.suffix_refl _
    generalize spanFraction rest = fraction at inside ⊢
    split
    · split
      · trivial
      · exact inside
    · cases exponent : spanExponent? fraction.2 with
      | none => exact inside
      | some pair => exact (spanExponent?_suffix exponent).trans inside

theorem reads_atom (limit : Nat) (chars : List Char) : Reads limit chars (readAtom chars) := by
  unfold readAtom
  dsimp only
  split
  · rename_i result found
    obtain ⟨word, _, matched⟩ := List.exists_of_findSome?_eq_some found
    obtain ⟨rest, dropped, rfl⟩ := Option.map_eq_some_iff.mp matched
    exact dropWord?_suffix dropped
  · exact reads_number limit chars

/-! ### Lists and records -/

section

variable {fuel : Nat}

theorem reads_value_succ
    (elements : ∀ depth done chars, Reads depth chars (readElements fuel depth done chars))
    (entries : ∀ depth done chars, Reads depth chars (readEntries fuel depth done chars))
    (depth : Nat) (chars : List Char) :
    Reads depth chars (readValue (fuel + 1) depth chars) := by
  unfold readValue
  split
  · refine Reads.mono (Reads.bind (reads_string depth _ _ _ _) ?_) (List.suffix_cons _ _)
    intro content rest _
    exact List.suffix_refl rest
  · rename_i rest
    split
    · simp [Reads, openings]
    · rename_i closed
      exact (suffix_of_skipSpace closed).trans (List.suffix_cons _ _)
    · exact ((elements _ _ _).mono (skipSpace_suffix rest)).opened (.inl rfl)
  · rename_i rest
    split
    · simp [Reads, openings]
    · rename_i closed
      exact (suffix_of_skipSpace closed).trans (List.suffix_cons _ _)
    · exact ((entries _ _ _).mono (skipSpace_suffix rest)).opened (.inr rfl)
  · exact reads_atom depth chars

theorem reads_elements_succ
    (values : ∀ depth chars, Reads depth chars (readValue fuel depth chars))
    (elements : ∀ depth done chars, Reads depth chars (readElements fuel depth done chars))
    (depth : Nat) (done : List Value) (chars : List Char) :
    Reads depth chars (readElements (fuel + 1) depth done chars) := by
  unfold readElements
  apply (values depth chars).bind
  intro value rest _
  dsimp only
  split
  · rename_i closed
    exact suffix_of_skipSpace closed
  · rename_i next separated
    exact (elements _ _ _).mono ((skipSpace_suffix next).trans (suffix_of_skipSpace separated))
  · trivial

theorem reads_entries_succ
    (values : ∀ depth chars, Reads depth chars (readValue fuel depth chars))
    (entries : ∀ depth done chars, Reads depth chars (readEntries fuel depth done chars))
    (depth : Nat) (done : List (Scalar × Value)) (chars : List Char) :
    Reads depth chars (readEntries (fuel + 1) depth done chars) := by
  unfold readEntries
  split
  · refine Reads.mono (Reads.bind (reads_string depth _ _ _ _) ?_) (List.suffix_cons _ _)
    intro name rest _
    dsimp only
    split
    · rename_i next separated
      refine Reads.mono (Reads.bind (values depth _) ?_)
        ((skipSpace_suffix next).trans (suffix_of_skipSpace separated))
      intro value rest _
      dsimp only
      split
      · rename_i closed
        exact suffix_of_skipSpace closed
      · rename_i next separated
        exact (entries _ _ _).mono ((skipSpace_suffix next).trans (suffix_of_skipSpace separated))
      · trivial
    · trivial
  · trivial

end

/-- The three mutually recursive readers lack room only if more brackets are opened than there is
room for. -/
theorem readers_read (fuel : Nat) :
    (∀ depth chars, Reads depth chars (readValue fuel depth chars)) ∧
    (∀ depth done chars, Reads depth chars (readElements fuel depth done chars)) ∧
    (∀ depth done chars, Reads depth chars (readEntries fuel depth done chars)) := by
  induction fuel with
  | zero =>
      refine ⟨fun _ _ => ?_, fun _ _ _ => ?_, fun _ _ _ => ?_⟩
      · rw [readValue]
        trivial
      · rw [readElements]
        trivial
      · rw [readEntries]
        trivial
  | succ fuel induction =>
      obtain ⟨values, elements, entries⟩ := induction
      exact ⟨reads_value_succ elements entries, reads_elements_succ values elements,
        reads_entries_succ values entries⟩

/-- Only a text that opens more brackets than may be open at once is nested too deeply. -/
theorem openings_of_tooDeep {text : String} (deep : read text = .error .tooDeep) :
    maxDepth < openings text.toList := by
  have stopped : readChars text.toList = .error .tooDeep := by
    unfold read at deep
    dsimp only at deep
    split at deep
    · cases deep
    · cases deep
    · cases deep
    · assumption
  unfold readChars at stopped
  split at stopped
  · cases stopped
  · rename_i chars _
    have reads := (readers_read (2 * text.toList.length + 1)).1 maxDepth (skipSpace text.toList)
    generalize readValue _ _ _ = outcome at stopped reads
    rcases outcome with cause | ⟨value, rest⟩
    · cases stopped
      exact Nat.lt_of_lt_of_le reads (openings_le (skipSpace_suffix _))
    · dsimp only [bind, Except.bind] at stopped
      split at stopped <;> cases stopped

theorem readValue_of_nested (depth : Nat) {fuel : Nat} (enough : 2 * depth < fuel)
    (rest : List Char) :
    readValue fuel depth (List.replicate (depth + 1) '[' ++ rest) = .error .tooDeep := by
  induction depth generalizing fuel with
  | zero =>
      obtain ⟨fuel, rfl⟩ := Nat.exists_eq_succ_of_ne_zero (Nat.ne_of_gt enough)
      rfl
  | succ depth induction =>
      obtain ⟨fuel, rfl⟩ : ∃ less, fuel = less + 2 := ⟨fuel - 2, by omega⟩
      have inner := @induction fuel (by omega)
      have opened : readValue (fuel + 2) (depth + 1)
          (List.replicate (depth + 2) '[' ++ rest) =
          readElements (fuel + 1) depth [] (List.replicate (depth + 1) '[' ++ rest) := rfl
      rw [opened, readElements, inner]
      rfl

/-- A text that starts with more brackets than may be open at once is not read, whatever
follows. -/
theorem read_of_nested (rest : List Char) :
    read (String.ofList (List.replicate (maxDepth + 1) '[' ++ rest)) = .error .tooDeep := by
  have stopped : readChars (List.replicate (maxDepth + 1) '[' ++ rest) = .error .tooDeep := by
    have start : skipSpace (List.replicate (maxDepth + 1) '[' ++ rest) =
        List.replicate (maxDepth + 1) '[' ++ rest := rfl
    unfold readChars
    split
    · rename_i impossible
      cases impossible
    · rw [start, readValue_of_nested]
      · rfl
      · rw [List.length_append, List.length_replicate]
        omega
  rw [read, String.toList_ofList, stopped]

/-! ### Texts without blanks and escapes -/

/-- The character stands for itself inside quotes. -/
def Plain (c : Char) : Prop :=
  32 ≤ c.toNat ∧ c ≠ '"' ∧ c ≠ '\\'

instance (c : Char) : Decidable (Plain c) :=
  inferInstanceAs (Decidable (32 ≤ c.toNat ∧ c ≠ '"' ∧ c ≠ '\\'))

/-- Plain characters, found one by one. -/
theorem plain_of_all {chars : List Char} (all : chars.all fun c => decide (Plain c)) :
    ∀ c ∈ chars, Plain c := by
  intro c member
  exact of_decide_eq_true (List.all_eq_true.mp all c member)

theorem readString_of_plain {name : List Char} (plain : ∀ c ∈ name, Plain c) (start : List Char)
    {fuel : Nat} (enough : name.length < fuel) (done rest : List Char) :
    readString start fuel done (name ++ '"' :: rest) =
      .ok (String.ofList (done.reverse ++ name), rest) := by
  induction name generalizing fuel done with
  | nil =>
      obtain ⟨fuel, rfl⟩ := Nat.exists_eq_succ_of_ne_zero (Nat.ne_of_gt enough)
      rw [List.append_nil]
      rfl
  | cons c name induction =>
      obtain ⟨fuel, rfl⟩ := Nat.exists_eq_succ_of_ne_zero (Nat.ne_of_gt (Nat.zero_lt_of_lt enough))
      obtain ⟨⟨printable, noQuote, noEscape⟩, others⟩ := List.forall_mem_cons.mp plain
      have step : readString start (fuel + 1) done (c :: name ++ '"' :: rest) =
          readString start fuel (c :: done) (name ++ '"' :: rest) := by
        simp [readString, Nat.not_lt.mpr printable]
      rw [step, induction others (by simpa using enough)]
      simp

section

variable {word : String} {text rest : List Char} {value : Value} {fuel depth : Nat}

/-- A word between quotes, read from the opening quote on. -/
theorem readString_of_word (plain : ∀ c ∈ word.toList, Plain c) (rest : List Char) :
    readString ('"' :: (word.toList ++ '"' :: rest)) ('"' :: (word.toList ++ '"' :: rest)).length []
      (word.toList ++ '"' :: rest) = .ok (word, rest) := by
  have enough : word.toList.length < ('"' :: (word.toList ++ '"' :: rest)).length := by
    rw [List.length_cons, List.length_append]
    omega
  rw [readString_of_plain plain _ enough, List.reverse_nil, List.nil_append, String.ofList_toList]

theorem readValue_of_plain (plain : ∀ c ∈ word.toList, Plain c) (fuel depth : Nat)
    (rest : List Char) :
    readValue (fuel + 1) depth ('"' :: (word.toList ++ '"' :: rest)) = .ok (.text word, rest) := by
  rw [readValue, readString_of_word plain]
  rfl

theorem readValue_of_record (fuel depth : Nat) (rest : List Char) :
    readValue (fuel + 1) (depth + 1) ('\x7b' :: '"' :: rest) =
      readEntries fuel depth [] ('"' :: rest) :=
  rfl

/-- An entry before the closing bracket. -/
theorem readEntries_of_last (done : List (Scalar × Value)) (plain : ∀ c ∈ word.toList, Plain c)
    (start : skipSpace text = text)
    (read : readValue fuel depth text = .ok (value, '\x7d' :: rest)) :
    readEntries (fuel + 1) depth done ('"' :: (word.toList ++ '"' :: ':' :: text)) =
      .ok (.record (Value.put (.text word) value done), rest) := by
  have colon : skipSpace (':' :: text) = ':' :: text := rfl
  rw [readEntries, readString_of_word plain]
  dsimp only [bind, Except.bind]
  simp only [colon, start, read]
  rfl

/-- An entry before another one. -/
theorem readEntries_of_next (done : List (Scalar × Value)) (plain : ∀ c ∈ word.toList, Plain c)
    (start : skipSpace text = text)
    (read : readValue fuel depth text = .ok (value, ',' :: '"' :: rest)) :
    readEntries (fuel + 1) depth done ('"' :: (word.toList ++ '"' :: ':' :: text)) =
      readEntries fuel depth (Value.put (.text word) value done) ('"' :: rest) := by
  have colon : skipSpace (':' :: text) = ':' :: text := rfl
  rw [readEntries, readString_of_word plain]
  dsimp only [bind, Except.bind]
  simp only [colon, start, read]
  rfl

/-- A text without blanks around its value. -/
theorem read_of_readValue {text : String} {c : Char} {chars : List Char} {value : Value}
    (same : text.toList = c :: chars) (noMark : c ≠ '\ufeff')
    (start : skipSpace (c :: chars) = c :: chars)
    (success : readValue (2 * (c :: chars).length + 1) maxDepth (c :: chars) = .ok (value, [])) :
    read text = .ok value := by
  have read : readChars (c :: chars) = .ok value := by
    unfold readChars
    split
    · rename_i marked
      exact absurd (List.cons.inj marked).1 noMark
    · rw [start, success]
      rfl
  rw [Json.read, same, read]

end

end ApiCensus.Json
