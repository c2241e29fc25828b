import ApiCensus.Proofs.Outcome
import ApiCensus.Report.Csv

/-!
# Written records are read back

Between the first character of a written record and its line feed, reading never completes a
record: line feeds of fields stand between quotes and leave the field open.  So the fields are
read as they were written, one record after the other, until one has a field that is too long.
Only a carriage return can do harm, and only if it does not call for quotes: without them it ends
a record whose other fields have yet to come.  `quoting` says whether it calls for quotes.
-/

namespace ApiCensus.Csv

variable {quoting : Bool} {reading next final : Reading} {text rest : List Char}

/-- Reading goes through a text and completes no record on the way. -/
inductive Passes : Reading → List Char → Reading → Prop
  | done (reading : Reading) : Passes reading [] reading
  | step {reading next final : Reading} {c : Char} {rest : List Char}
      (fed : reading.feed? c = some next) (inside : c = '\n' → next.state = .inQuotes)
      (later : Passes next rest final) : Passes reading (c :: rest) final

theorem Passes.single {c : Char} (fed : reading.feed? c = some next) (within : c ≠ '\n') :
    Passes reading [c] next :=
  .step fed (fun lineFeed => absurd lineFeed within) (.done next)

theorem Passes.append {middle : Reading} (first : Passes reading text middle)
    (second : Passes middle rest final) : Passes reading (text ++ rest) final := by
  induction first with
  | done => exact second
  | step fed inside _ induction => exact .step fed inside (induction second)

/-! ### Lines -/

theorem exists_lines_cons (c : Char) (rest : List Char) :
    ∃ line others, lines (c :: rest) = (c :: line) :: others := by
  rw [lines]
  split
  · exact ⟨_, _, rfl⟩
  · split
    · exact ⟨_, _, rfl⟩
    · exact ⟨_, _, rfl⟩

theorem exists_lines_eq_cons (more : text ≠ []) : ∃ line others, lines text = line :: others := by
  obtain ⟨c, rest, rfl⟩ := List.exists_cons_of_ne_nil more
  obtain ⟨line, others, split⟩ := exists_lines_cons c rest
  exact ⟨_, _, split⟩

theorem lines_of_lineFeed (rest : List Char) : lines ('\n' :: rest) = ['\n'] :: lines rest :=
  if_pos rfl

/-- A character that completes no record leaves the rest of the text to the next state. -/
theorem readLines_of_feed {c : Char} (fed : reading.feed? c = some next)
    (inside : c = '\n' → next.state = .inQuotes) (more : rest ≠ []) :
    readLines reading (lines (c :: rest)) = readLines next (lines rest) := by
  by_cases lineFeed : c = '\n'
  · subst lineFeed
    have quoted := inside rfl
    have ended : next.endLine = next := by
      unfold Reading.endLine
      rw [quoted]
    rw [lines_of_lineFeed, readLines]
    simp [Reading.feedLine?, fed, ended, quoted]
  · obtain ⟨line, others, split⟩ := exists_lines_eq_cons more
    have longer : lines (c :: rest) = (c :: line) :: others := by
      rw [lines, split]
      exact if_neg lineFeed
    rw [longer, split]
    simp only [readLines, Reading.feedLine?, fed, Option.bind_some]

theorem Passes.readLines_append (passes : Passes reading text final) (more : rest ≠ []) :
    readLines reading (lines (text ++ rest)) = readLines final (lines rest) := by
  induction passes with
  | done => rfl
  | step fed inside _ induction =>
      rw [List.cons_append, readLines_of_feed fed inside (by simp [more]), induction]

theorem readLines_of_refused {c : Char} (refused : reading.feed? c = none) (rest : List Char) :
    readLines reading (lines (c :: rest)) = [.error .csv] := by
  obtain ⟨line, others, split⟩ := exists_lines_cons c rest
  rw [split, readLines]
  simp only [Reading.feedLine?, refused, Option.bind_none]

/-- After the end of a record its line has to end too. -/
theorem readLines_after_record (ended : reading.state = .endRecord) (sameLine : '\n' ∉ text)
    (more : ∃ c ∈ text, c ≠ '\r') (rest : List Char) :
    readLines reading (lines (text ++ rest)) = [.error .csv] := by
  induction text with
  | nil => simp at more
  | cons c text induction =>
      rw [List.mem_cons, not_or] at sameLine
      obtain ⟨noLineFeed, sameLine⟩ := sameLine
      by_cases isReturn : c = '\r'
      · have later : ∃ c ∈ text, c ≠ '\r' := by simpa [isReturn] using more
        obtain ⟨other, inside, differs⟩ := later
        have fed : reading.feed? c = some reading := by simp [Reading.feed?, ended, isReturn]
        have unfinished : text ++ rest ≠ [] := by simp [List.ne_nil_of_mem inside]
        rw [List.cons_append, readLines_of_feed fed
          (fun lineFeed => absurd lineFeed.symm noLineFeed) unfinished]
        exact induction sameLine ⟨other, inside, differs⟩
      · apply readLines_of_refused
        simp [Reading.feed?, ended, isReturn, Ne.symm noLineFeed]

/-! ### Fields -/

/-- All fields up to here have been read, the last one first, and the last is still open. -/
structure HasRead (all : List (List Char)) (reading : Reading) : Prop where
  fields : reading.field.reverse :: reading.fields = all
  outside : reading.state ≠ .inQuotes ∧ reading.state ≠ .endRecord

theorem HasRead.feed_comma {all : List (List Char)} (read : HasRead all reading) :
    reading.feed? ',' = some ⟨.startField, [], all⟩ := by
  obtain ⟨state, field, fields⟩ := reading
  obtain ⟨rfl, outside⟩ := read
  cases state with
  | inQuotes => exact absurd rfl outside.1
  | endRecord => exact absurd rfl outside.2
  | _ => rfl

/-- A line feed ends the last field, unless nothing of the record has been read. -/
theorem HasRead.feed_lineFeed {all : List (List Char)} (read : HasRead all reading)
    (begun : reading.state ≠ .startRecord) :
    reading.feed? '\n' = some ⟨.endRecord, [], all⟩ := by
  obtain ⟨state, field, fields⟩ := reading
  obtain ⟨rfl, outside⟩ := read
  cases state with
  | startRecord => exact absurd rfl begun
  | inQuotes => exact absurd rfl outside.1
  | endRecord => exact absurd rfl outside.2
  | _ => rfl

/-- So does a carriage return, whatever has been read. -/
theorem HasRead.feed_return {all : List (List Char)} (read : HasRead all reading) :
    ∃ next, reading.feed? '\r' = some next ∧ next.state = .endRecord := by
  obtain ⟨state, field, fields⟩ := reading
  obtain ⟨rfl, outside⟩ := read
  cases state with
  | inQuotes => exact absurd rfl outside.1
  | endRecord => exact absurd rfl outside.2
  | _ => exact ⟨_, rfl, rfl⟩

theorem ne_of_not_needsQuotes {c : Char} (bare : needsQuotes quoting c = false) :
    c ≠ ',' ∧ c ≠ '"' ∧ c ≠ '\n' := by
  unfold needsQuotes at bare
  simp only [Bool.or_eq_false_iff, decide_eq_false_iff_not] at bare
  exact ⟨bare.1.1.1, bare.1.1.2, bare.1.2⟩

theorem passes_inField {field : List Char} (done : List Char) (fields : List (List Char))
    (plain : ∀ c ∈ field, needsQuotes quoting c = false ∧ c ≠ '\r') :
    Passes ⟨.inField, done, fields⟩ field ⟨.inField, field.reverse ++ done, fields⟩ := by
  induction field generalizing done with
  | nil => exact .done _
  | cons c field induction =>
      obtain ⟨⟨bare, noReturn⟩, others⟩ := List.forall_mem_cons.mp plain
      obtain ⟨noComma, _, noLineFeed⟩ := ne_of_not_needsQuotes bare
      rw [List.reverse_cons, List.append_assoc]
      refine .step ?_ (fun lineFeed => absurd lineFeed noLineFeed) (induction (c :: done) others)
      simp [Reading.feed?, Reading.push, noLineFeed, noReturn, noComma]

/-- Between quotes every character is kept, and line feeds do not end the record. -/
theorem passes_inQuotes (field done : List Char) (fields : List (List Char)) :
    Passes ⟨.inQuotes, done, fields⟩ (field.flatMap doubleQuote)
      ⟨.inQuotes, field.reverse ++ done, fields⟩ := by
  induction field generalizing done with
  | nil => exact .done _
  | cons c field induction =>
      rw [List.flatMap_cons, List.reverse_cons, List.append_assoc]
      refine Passes.append ?_ (induction (c :: done))
      by_cases quote : c = '"'
      · subst quote
        have first : Reading.feed? ⟨.inQuotes, done, fields⟩ '"' =
            some ⟨.afterQuote, done, fields⟩ := rfl
        have second : Reading.feed? ⟨.afterQuote, done, fields⟩ '"' =
            some ⟨.inQuotes, '"' :: done, fields⟩ := rfl
        exact (Passes.single first (by decide)).append (Passes.single second (by decide))
      · rw [doubleQuote, if_neg quote]
        have kept : Reading.feed? ⟨.inQuotes, done, fields⟩ c =
            some ⟨.inQuotes, c :: done, fields⟩ := by
          simp [Reading.feed?, Reading.push, quote]
        exact .step kept (fun _ => rfl) (.done _)

/-- A field can start here. -/
def State.Opening (state : State) : Prop :=
  state = .startRecord ∨ state = .startField

theorem passes_quoteField {start : State} (opening : start.Opening) (field : List Char)
    (fields : List (List Char)) :
    Passes ⟨start, [], fields⟩ (quoteField field) ⟨.afterQuote, field.reverse, fields⟩ := by
  have opened : Reading.feed? ⟨start, [], fields⟩ '"' = some ⟨.inQuotes, [], fields⟩ := by
    rcases opening with rfl | rfl <;> rfl
  have closed : Reading.feed? ⟨.inQuotes, field.reverse, fields⟩ '"' =
      some ⟨.afterQuote, field.reverse, fields⟩ := rfl
  have content := passes_inQuotes field [] fields
  rw [List.append_nil] at content
  exact (Passes.single opened (by decide)).append
    (content.append (Passes.single closed (by decide)))

theorem passes_plainField {start : State} (opening : start.Opening) {c : Char}
    {field : List Char} (fields : List (List Char))
    (plain : ∀ other ∈ c :: field, needsQuotes quoting other = false ∧ other ≠ '\r') :
    Passes ⟨start, [], fields⟩ (c :: field) ⟨.inField, (c :: field).reverse, fields⟩ := by
  obtain ⟨⟨bare, noReturn⟩, others⟩ := List.forall_mem_cons.mp plain
  obtain ⟨noComma, noQuote, noLineFeed⟩ := ne_of_not_needsQuotes bare
  have opened : Reading.feed? ⟨start, [], fields⟩ c = some ⟨.inField, [c], fields⟩ := by
    rcases opening with rfl | rfl <;>
      simp [Reading.feed?, Reading.feedStart, Reading.push, noLineFeed, noReturn, noComma, noQuote]
  rw [List.reverse_cons]
  exact .step opened (fun lineFeed => absurd lineFeed noLineFeed) (passes_inField [c] fields others)

/-- A carriage return of the field is written between quotes. -/
def Sealed (quoting : Bool) (field : List Char) : Prop :=
  '\r' ∈ field → field.any (needsQuotes quoting) = true

instance (field : List Char) : Decidable (Sealed quoting field) :=
  inferInstanceAs (Decidable ('\r' ∈ field → field.any (needsQuotes quoting) = true))

theorem sealed_of_noReturn {field : List Char} (noReturn : '\r' ∉ field) : Sealed quoting field :=
  fun inside => absurd inside noReturn

/-- A written field is read.  Nothing at all has been read only if the field is empty. -/
theorem passes_writeField {start : State} (opening : start.Opening) {field : List Char}
    (fields : List (List Char)) (isSealed : Sealed quoting field) :
    ∃ final, Passes ⟨start, [], fields⟩ (writeField quoting field) final ∧
      HasRead (field :: fields) final ∧
      (final.state = .startRecord → start = .startRecord ∧ field = []) := by
  unfold writeField
  split
  · refine ⟨_, passes_quoteField opening field fields, ?_, by simp⟩
    exact ⟨by simp, by simp⟩
  · rename_i bare
    cases field with
    | nil =>
        refine ⟨_, .done _, ⟨rfl, ?_⟩, fun same => ⟨same, rfl⟩⟩
        rcases opening with rfl | rfl <;> simp
    | cons c field =>
        have plain : ∀ other ∈ c :: field, needsQuotes quoting other = false ∧ other ≠ '\r' := by
          intro other member
          constructor
          · apply Bool.eq_false_iff.mpr
            intro needs
            exact bare (List.any_eq_true.mpr ⟨other, member, needs⟩)
          · intro same
            exact bare (isSealed (same ▸ member))
        refine ⟨_, passes_plainField opening fields plain, ?_, by simp⟩
        exact ⟨by simp, by simp⟩

/-- A field with a carriage return outside quotes ends its record, where a comma may not
follow. -/
theorem readLines_of_unsealed {start : State} (opening : start.Opening) {field : List Char}
    (fields : List (List Char)) (broken : ¬ Sealed quoting field) (rest : List Char) :
    readLines ⟨start, [], fields⟩ (lines (writeField quoting field ++ ',' :: rest)) =
      [.error .csv] := by
  obtain ⟨hasReturn, bare⟩ := Classical.not_imp.mp broken
  have same : writeField quoting field = field := if_neg bare
  obtain ⟨before, after, rfl, noReturn⟩ := List.eq_append_cons_of_mem hasReturn
  have plain : ∀ c ∈ before ++ '\r' :: after, needsQuotes quoting c = false := by
    simpa only [Bool.not_eq_true, List.any_eq_false] using bare
  obtain ⟨plainBefore, plainAfter⟩ := List.forall_mem_append.mp plain
  have sameBefore : writeField quoting before = before := if_neg (by simpa using plainBefore)
  obtain ⟨middle, passes, read, _⟩ :=
    passes_writeField opening fields (sealed_of_noReturn noReturn)
  obtain ⟨next, fed, ended⟩ := read.feed_return
  have sameLine : '\n' ∉ after ++ [','] := by
    intro inside
    rcases List.mem_append.mp inside with later | comma
    · have bareLineFeed := plainAfter '\n' (List.mem_cons_of_mem _ later)
      simp [needsQuotes, terminator] at bareLineFeed
    · simp at comma
  have refused := readLines_after_record ended sameLine ⟨',', by simp, by decide⟩ rest
  rw [List.append_assoc, List.singleton_append] at refused
  rw [sameBefore] at passes
  rw [same, List.append_assoc, List.cons_append, passes.readLines_append (by simp),
    readLines_of_feed fed (fun impossible => absurd impossible (by decide)) (by simp), refused]

/-! ### Records -/

theorem passes_joinFields {start : State} (opening : start.Opening) {field : List Char}
    {others fields : List (List Char)} (allSealed : ∀ each ∈ field :: others, Sealed quoting each) :
    ∃ final,
      Passes ⟨start, [], fields⟩ (joinFields ((field :: others).map (writeField quoting))) final ∧
      HasRead ((field :: others).reverse ++ fields) final ∧
      (final.state = .startRecord → start = .startRecord ∧ field = [] ∧ others = []) := by
  induction others generalizing start field fields with
  | nil =>
      obtain ⟨final, passes, read, empty⟩ :=
        passes_writeField opening fields (allSealed field List.mem_cons_self)
      exact ⟨final, passes, read, fun same => ⟨(empty same).1, (empty same).2, rfl⟩⟩
  | cons other others induction =>
      obtain ⟨here, later⟩ := List.forall_mem_cons.mp allSealed
      obtain ⟨middle, passes, read, _⟩ := passes_writeField opening fields here
      obtain ⟨final, rest, restRead, empty⟩ := @induction .startField (.inr rfl) _ _ later
      have joined := passes.append ((Passes.single read.feed_comma (by decide)).append rest)
      refine ⟨final, joined, ?_, fun same => nomatch (empty same).1⟩
      rw [List.reverse_cons, List.append_assoc]
      exact restRead

/-- The first field that breaks its record stops the reading if it is not the last. -/
theorem readLines_joinFields_of_unsealed {start : State} (opening : start.Opening)
    {before others fields : List (List Char)} {field : List Char}
    (earlier : ∀ each ∈ before, Sealed quoting each) (broken : ¬ Sealed quoting field)
    (more : others ≠ []) (rest : List Char) :
    readLines ⟨start, [], fields⟩
      (lines (joinFields ((before ++ field :: others).map (writeField quoting)) ++ rest)) =
        [.error .csv] := by
  induction before generalizing start fields with
  | nil =>
      obtain ⟨other, others, rfl⟩ := List.exists_cons_of_ne_nil more
      have joined : joinFields (([] ++ field :: other :: others).map (writeField quoting)) =
          writeField quoting field ++
            ',' :: joinFields ((other :: others).map (writeField quoting)) := rfl
      rw [joined, List.append_assoc, List.cons_append]
      exact readLines_of_unsealed opening fields broken _
  | cons first before induction =>
      obtain ⟨here, later⟩ := List.forall_mem_cons.mp earlier
      obtain ⟨middle, passes, read, _⟩ := passes_writeField opening fields here
      have joined : joinFields ((first :: before ++ field :: others).map (writeField quoting)) =
          writeField quoting first ++ [','] ++
            joinFields ((before ++ field :: others).map (writeField quoting)) := by
        cases before <;> simp [joinFields]
      have upToComma := passes.append (Passes.single read.feed_comma (by decide))
      have refused := @induction .startField (.inr rfl) (first :: fields) later
      -- At the end of a text nothing is refused, so that the other fields are some text.
      have unfinished :
          joinFields ((before ++ field :: others).map (writeField quoting)) ++ rest ≠ [] := by
        intro finished
        rw [finished] at refused
        cases refused
      rw [joined, List.append_assoc, upToComma.readLines_append unfinished]
      exact refused

theorem writeRecord_of_ne {fields : List String} (other : fields ≠ [""]) :
    writeRecord quoting fields =
      joinFields ((fields.map String.toList).map (writeField quoting)) ++ ['\n'] := by
  unfold writeRecord
  split
  · exact absurd rfl other
  · rw [List.map_map]
    rfl

/-- Up to its line feed a written record is read and still open. -/
theorem passes_writeRecord {fields : List String} (nonempty : fields ≠ [])
    (allSealed : ∀ field ∈ fields, Sealed quoting field.toList) :
    ∃ body final, writeRecord quoting fields = body ++ ['\n'] ∧ Passes {} body final ∧
      HasRead (fields.map String.toList).reverse final ∧ final.state ≠ .startRecord := by
  by_cases single : fields = [""]
  · subst single
    exact ⟨_, _, rfl, passes_quoteField (.inl rfl) [] [], ⟨rfl, by simp⟩, by simp⟩
  · obtain ⟨field, others, rfl⟩ := List.exists_cons_of_ne_nil nonempty
    obtain ⟨final, passes, read, empty⟩ := @passes_joinFields quoting .startRecord (.inl rfl)
      field.toList (others.map String.toList) [] (by simpa using allSealed)
    rw [List.append_nil] at read
    refine ⟨_, final, writeRecord_of_ne single, passes, read, ?_⟩
    intro same
    obtain ⟨_, noField, noOthers⟩ := empty same
    rw [List.map_eq_nil_iff] at noOthers
    rw [String.toList_eq_nil_iff.mp noField, noOthers] at single
    exact single rfl

/-- No field of the record is too long. -/
def Fits (record : List String) : Prop :=
  ∀ field ∈ record, field.length ≤ fieldLimit

instance (record : List String) : Decidable (Fits record) :=
  inferInstanceAs (Decidable (∀ field ∈ record, field.length ≤ fieldLimit))

theorem record_eq (state : State) (record : List String) :
    Reading.record ⟨state, [], (record.map String.toList).reverse⟩ =
      if Fits record then .ok record else .error .csv := by
  have long : ((record.map String.toList).reverse.any fun field => field.length > fieldLimit) =
      true ↔ ¬ Fits record := by
    simp [Fits, String.length_toList]
  unfold Reading.record
  by_cases fits : Fits record
  · rw [if_neg fun found => long.mp found fits, if_pos fits]
    simp [Function.comp_def]
  · rw [if_pos (long.mpr fits), if_neg fits]

/-- The field can be read: a carriage return is written between quotes, and it is not too long. -/
def Legible (quoting : Bool) (field : String) : Prop :=
  Sealed quoting field.toList ∧ field.length ≤ fieldLimit

instance (field : String) : Decidable (Legible quoting field) :=
  inferInstanceAs (Decidable (Sealed quoting field.toList ∧ field.length ≤ fieldLimit))

/-- If carriage returns are quoted, only the length matters. -/
theorem legible_iff_of_quoting (quotes : quoting = true) {field : String} :
    Legible quoting field ↔ field.length ≤ fieldLimit := by
  subst quotes
  have isSealed : Sealed true field.toList :=
    fun inside => List.any_eq_true.mpr ⟨'\r', inside, rfl⟩
  exact and_iff_right isSealed

/-- All fields of the record can be read. -/
def Sound (quoting : Bool) (record : List String) : Prop :=
  ∀ field ∈ record, Legible quoting field

instance (record : List String) : Decidable (Sound quoting record) :=
  inferInstanceAs (Decidable (∀ field ∈ record, Legible quoting field))

/-- The record has fields, and the last of them does not break it. -/
def Finished (quoting : Bool) (record : List String) : Prop :=
  ∃ before last, record = before ++ [last] ∧ Sealed quoting last.toList

theorem readLines_of_sealed {record : List String} (nonempty : record ≠ [])
    (allSealed : ∀ field ∈ record, Sealed quoting field.toList) (rest : List Char) :
    readLines {} (lines (writeRecord quoting record ++ rest)) =
      if Fits record then .ok record :: readLines {} (lines rest) else [.error .csv] := by
  obtain ⟨body, final, written, passes, read, begun⟩ := passes_writeRecord nonempty allSealed
  rw [written, List.append_assoc, List.singleton_append, passes.readLines_append (by simp),
    lines_of_lineFeed, readLines]
  simp only [Reading.feedLine?, read.feed_lineFeed begun, Option.bind_some, Reading.endLine,
    if_true, record_eq]
  by_cases fits : Fits record
  · simp only [fits, if_true]
  · simp only [fits, if_false]

theorem readLines_of_broken {before others : List String} {field : String}
    (earlier : ∀ each ∈ before, Sealed quoting each.toList) (broken : ¬ Sealed quoting field.toList)
    (more : others ≠ []) (rest : List Char) :
    readLines {} (lines (writeRecord quoting (before ++ field :: others) ++ rest)) =
      [.error .csv] := by
  have several : before ++ field :: others ≠ [""] := by
    intro single
    have length := congrArg List.length single
    have positive := List.length_pos_iff.mpr more
    simp only [List.length_append, List.length_cons, List.length_nil] at length
    omega
  have mapped : (before ++ field :: others).map String.toList =
      before.map String.toList ++ field.toList :: others.map String.toList := by simp
  rw [writeRecord_of_ne several, List.append_assoc, mapped]
  exact readLines_joinFields_of_unsealed (.inl rfl) (by simpa using earlier) broken
    (by simpa using more) _

/-- A written record is read back, and reading goes on after it, exactly if it is sound. -/
theorem readLines_writeRecord {record : List String} (finished : Finished quoting record)
    (rest : List Char) :
    readLines {} (lines (writeRecord quoting record ++ rest)) =
      if Sound quoting record then .ok record :: readLines {} (lines rest) else [.error .csv] := by
  obtain ⟨front, last, rfl, lastSealed⟩ := finished
  rcases Outcome.forall_or_first (fun field : String => Sealed quoting field.toList) front with
    frontSealed | ⟨before, field, after, rfl, earlier, broken⟩
  · have allSealed : ∀ field ∈ front ++ [last], Sealed quoting field.toList :=
      List.forall_mem_append.mpr ⟨frontSealed, List.forall_mem_singleton.mpr lastSealed⟩
    rw [readLines_of_sealed (by simp) allSealed]
    by_cases fits : Fits (front ++ [last])
    · have sound : Sound quoting (front ++ [last]) := fun field member =>
        ⟨allSealed field member, fits field member⟩
      rw [if_pos fits, if_pos sound]
    · rw [if_neg fits, if_neg fun sound => fits fun field member => (sound field member).2]
  · rw [if_neg fun sound => broken (sound field (by simp)).1, List.append_assoc,
      List.cons_append]
    exact readLines_of_broken earlier broken (by simp) rest

/-! ### Texts -/

variable {records : List (List String)}

theorem readLines_append (finished : ∀ record ∈ records, Finished quoting record)
    (sound : ∀ record ∈ records, Sound quoting record) (rest : List Char) :
    readLines {} (lines (records.flatMap (writeRecord quoting) ++ rest)) =
      records.map .ok ++ readLines {} (lines rest) := by
  induction records with
  | nil => rfl
  | cons record records induction =>
      obtain ⟨hereFinished, othersFinished⟩ := List.forall_mem_cons.mp finished
      obtain ⟨hereSound, othersSound⟩ := List.forall_mem_cons.mp sound
      rw [List.flatMap_cons, List.append_assoc, readLines_writeRecord hereFinished,
        if_pos hereSound, induction othersFinished othersSound, List.map_cons, List.cons_append]

/-- Sound records are read back from the text in which they are written. -/
theorem read_write (finished : ∀ record ∈ records, Finished quoting record)
    (sound : ∀ record ∈ records, Sound quoting record) :
    read (write quoting records) = records.map .ok := by
  rw [read, write, String.toList_ofList, ← List.append_nil (records.flatMap (writeRecord quoting)),
    readLines_append finished sound]
  exact List.append_nil _

/-- Reading stops at the first record that is not sound. -/
theorem read_write_of_unsound {record : List String} {after : List (List String)}
    (finished : ∀ each ∈ records ++ record :: after, Finished quoting each)
    (sound : ∀ record ∈ records, Sound quoting record) (unsound : ¬ Sound quoting record) :
    read (write quoting (records ++ record :: after)) = records.map .ok ++ [.error .csv] := by
  obtain ⟨before, later⟩ := List.forall_mem_append.mp finished
  obtain ⟨here, _⟩ := List.forall_mem_cons.mp later
  rw [read, write, String.toList_ofList, List.flatMap_append, List.flatMap_cons,
    readLines_append before sound, readLines_writeRecord here, if_neg unsound]

end ApiCensus.Csv
