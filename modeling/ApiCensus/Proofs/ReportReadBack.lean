import ApiCensus.Proofs.CsvRecords
import ApiCensus.Proofs.Outcome
import ApiCensus.Proofs.WrittenIntegers
import ApiCensus.Report.Emit

/-!
# Reports are read back

Rows that are written as comma-separated values are read back with their category, their
dimension and all counts.  Ratios are not read, but they have to pass the reader: with very
many decimal places they are too long for it, and then no row is read.
-/

namespace ApiCensus

/-! ### Texts of ratios -/

namespace Binary64

theorem mem_pointed {places value : Nat} {c : Char} (member : c ∈ pointed places value) :
    c = '.' ∨ c.isDigit = true := by
  have padding : ∀ c ∈ List.replicate (places + 1 - (Number.digits value).length) '0' ++
      Number.digits value, c.isDigit = true := by
    intro c member
    rcases List.mem_append.mp member with zero | digit
    · rw [List.eq_of_mem_replicate zero]
      rfl
    · exact Number.isDigit_of_mem_digits digit
  unfold pointed at member
  split at member
  · exact .inr (padding c member)
  · rcases List.mem_append.mp member with whole | fraction
    · exact .inr (padding c (List.mem_of_mem_take whole))
    · rcases List.mem_cons.mp fraction with point | fraction
      · exact .inl point
      · exact .inr (padding c (List.mem_of_mem_drop fraction))

theorem return_not_mem_fixed (places : Nat) (number : Binary64) :
    '\r' ∉ (number.fixed places).toList := by
  cases number with
  | nan => simp [fixed]
  | infinite negative => cases negative <;> simp [fixed]
  | finite negative mantissa exponent =>
      have body : '\r' ∉ pointed places (Number.roundDiv
          ((ratio mantissa exponent).1 * Nat.pow 10 places) (ratio mantissa exponent).2) := by
        intro member
        rcases mem_pointed member with impossible | impossible <;> cases impossible
      cases negative with
      | true => simpa [fixed] using body
      | false => simpa [fixed] using body

/-- There is a digit before the point and as many after it as asked for. -/
theorem length_pointed {places : Nat} (some : places ≠ 0) (value : Nat) :
    places + 2 ≤ (pointed places value).length := by
  unfold pointed
  rw [if_neg some]
  simp
  omega

theorem length_fixed {places : Nat} (some : places ≠ 0) (negative : Bool) (mantissa : Nat)
    (exponent : Int) : places + 2 ≤ (fixed places (.finite negative mantissa exponent)).length := by
  have body := length_pointed some (Number.roundDiv
    ((ratio mantissa exponent).1 * Nat.pow 10 places) (ratio mantissa exponent).2)
  cases negative with
  | true =>
      simp only [fixed, if_true, String.length_ofList, List.length_cons]
      omega
  | false => simpa [fixed] using body

end Binary64

namespace Report

variable {grouping : Grouping} {precision : Int} {row : Row} {rows : List Row}

theorem return_not_mem_formatRatio {value : Rat} {text : String}
    (formatted : formatRatio precision value = .ok text) : '\r' ∉ text.toList := by
  obtain ⟨number, _, formatted⟩ := Outcome.bind_eq_ok_iff.mp formatted
  obtain ⟨places, _, same⟩ := Outcome.bind_eq_ok_iff.mp formatted
  cases same
  exact Binary64.return_not_mem_fixed places number

/-! ### Cells -/

/-- The cells of a row that tell its group. -/
def keyCells (grouping : Grouping) (row : Row) : List String :=
  row.category :: (grouping.dimension?.map fun _ => row.dimension.getD "").toList

/-- The cells of a row that hold its counts. -/
def countCells (metrics : Metrics) : List String :=
  Metrics.columns.map fun column => toString (column.2 metrics)

/-- All counts can be written. -/
def Countable (metrics : Metrics) : Prop :=
  ∀ column ∈ Metrics.columns, (column.2 metrics).natAbs < Nat.pow 10 Number.maxDigits

theorem writeCounts_eq_ok_iff {metrics : Metrics} {counts : List String} :
    (Metrics.columns.mapM fun (_, metric) => (liftM (Number.writeInteger (metric metrics)) :
      Except Failure String)) = .ok counts ↔ Countable metrics ∧ countCells metrics = counts := by
  rw [Outcome.mapM_eq_ok_iff]
  simp only [Outcome.liftM_integer_eq_ok_iff, Number.writeInteger_eq_ok_iff]
  rw [List.forall₂_and_left, ← List.forall₂_map_left_iff (R := Eq), List.forall₂_eq_eq_eq]
  rfl

theorem cells_eq_ok_iff {record : List String} :
    cells grouping precision row = .ok record ↔
      Countable row.metrics ∧ ∃ ratios,
        List.Forall₂ (fun column text => formatRatio precision (column.2 row.metrics) = .ok text)
          Metrics.ratioColumns ratios ∧
        record = keyCells grouping row ++ countCells row.metrics ++ ratios := by
  unfold cells
  rw [Outcome.bind_eq_ok_iff]
  simp only [writeCounts_eq_ok_iff]
  constructor
  · rintro ⟨counts, ⟨countable, rfl⟩, rest⟩
    obtain ⟨ratios, ratiosOk, same⟩ := Outcome.bind_eq_ok_iff.mp rest
    cases same
    exact ⟨countable, ratios, Outcome.mapM_eq_ok_iff.mp ratiosOk, rfl⟩
  · rintro ⟨countable, ratios, ratiosOk, rfl⟩
    exact ⟨_, ⟨countable, rfl⟩, Outcome.bind_eq_ok_iff.mpr
      ⟨ratios, Outcome.mapM_eq_ok_iff.mpr ratiosOk, rfl⟩⟩

/-! ### Reading rows -/

theorem hasDimension_columns (grouping : Grouping) :
    hasDimension (columns grouping) = grouping.dimension?.isSome := by
  cases grouping <;> decide

/-- The counts stand after the cells of the group, in their order. -/
theorem positionOf_column (grouping : Grouping) (row : Row) :
    ∀ column ∈ Metrics.columns.zipIdx, positionOf (columns grouping) column.1.1 =
      .ok ((keyCells grouping row).length + column.2) := by
  simp only [Metrics.columns, List.zipIdx_cons, List.zipIdx_nil, List.forall_mem_cons,
    List.not_mem_nil, false_implies, implies_true, and_true]
  cases grouping <;> exact ⟨rfl, rfl, rfl, rfl, rfl, rfl, rfl, rfl⟩

theorem cellAt_count {keys ratios : List String} {metrics : Metrics}
    {column : (String × (Metrics → Int)) × Nat} (member : column ∈ Metrics.columns.zipIdx) :
    cellAt (keys ++ countCells metrics ++ ratios) (keys.length + column.2) =
      .ok (toString (column.1.2 metrics)) := by
  have found : Metrics.columns[column.2]? = some column.1 := List.mem_zipIdx_iff_getElem?.mp member
  have cell : (countCells metrics)[column.2]? = some (toString (column.1.2 metrics)) := by
    rw [countCells, List.getElem?_map, found]
    rfl
  have inside : column.2 < (countCells metrics).length :=
    (List.getElem?_eq_some_iff.mp cell).1
  rw [cellAt, List.append_assoc, List.getElem?_append_right (Nat.le_add_right _ _),
    Nat.add_sub_cancel_left, List.getElem?_append_left inside, cell]

theorem readMetrics_cells (grouping : Grouping) (countable : Countable row.metrics)
    (ratios : List String) :
    readMetrics (columns grouping) (keyCells grouping row ++ countCells row.metrics ++ ratios) =
      .ok row.metrics := by
  have each : ∀ column ∈ Metrics.columns.zipIdx,
      (do
        let cell ← cellAt (keyCells grouping row ++ countCells row.metrics ++ ratios)
          (← positionOf (columns grouping) column.1.1)
        Number.readInteger cell : Except Failure Int) = .ok (column.1.2 row.metrics) := by
    intro column member
    have small := countable column.1 (List.fst_mem_of_mem_zipIdx member)
    rw [positionOf_column grouping row column member]
    refine Outcome.bind_eq_ok_iff.mpr ⟨_, rfl, Outcome.bind_eq_ok_iff.mpr
      ⟨toString (column.1.2 row.metrics), ?_, ?_⟩⟩
    · exact Outcome.liftM_shape_eq_ok_iff.mpr (cellAt_count member)
    · exact Outcome.liftM_integer_eq_ok_iff.mpr (Number.readInteger_toString small)
  simp only [Metrics.columns, List.zipIdx_cons, List.zipIdx_nil, List.forall_mem_cons,
    List.not_mem_nil, false_implies, implies_true, and_true] at each
  obtain ⟨count, visible, deprecated, unstable, documented, generics, constFns, asyncFns⟩ := each
  unfold readMetrics
  simp only [count, visible, deprecated, unstable, documented, generics, constFns, asyncFns]
  rfl

/-- A row as it comes back from a report: with a dimension exactly if the grouping has one. -/
def readBack (grouping : Grouping) (row : Row) : Row :=
  { row with dimension := grouping.dimension?.map fun _ => row.dimension.getD "" }

theorem readRow_cells {record : List String} (written : cells grouping precision row = .ok record) :
    readRow (columns grouping) record = .ok (readBack grouping row) := by
  obtain ⟨countable, ratios, _, rfl⟩ := cells_eq_ok_iff.mp written
  unfold readRow
  rw [hasDimension_columns, readMetrics_cells grouping countable]
  cases grouping <;> rfl

theorem cells_ne_nil {record : List String} (written : cells grouping precision row = .ok record) :
    record.isEmpty = false := by
  obtain ⟨_, ratios, _, rfl⟩ := cells_eq_ok_iff.mp written
  rfl

/-- Records of rows give these rows, before what comes after them. -/
theorem readRows_append {records : List (List String)} (rest : List (Except Failure (List String)))
    (written : List.Forall₂ (fun row record => cells grouping precision row = .ok record)
      rows records) :
    readRows (columns grouping) (records.map .ok ++ rest) =
      (readRows (columns grouping) rest).map (rows.map (readBack grouping) ++ ·) := by
  induction written with
  | nil =>
      rw [List.map_nil, List.nil_append]
      cases readRows (columns grouping) rest <;> rfl
  | @cons row record rows records first _ induction =>
      have head : ∀ later, readRows (columns grouping) (.ok record :: later) =
          (readRows (columns grouping) later).map (readBack grouping row :: ·) := by
        intro later
        rw [readRows]
        dsimp only [bind, Except.bind]
        rw [cells_ne_nil first, readRow_cells first]
        cases readRows (columns grouping) later <;> rfl
      rw [List.map_cons, List.cons_append, head, induction]
      cases readRows (columns grouping) rest <;> rfl

/-! ### Writing and reading reports -/

/-- The number of decimal places that a configuration asks for. -/
def precisionOf (config : Value) : Except Failure Int := do
  ratioPrecision (← outputSettings config)

theorem emit_csv_eq_ok_iff {printer : Printer} {config : Value} {warnings : List Cycle}
    {deprecated : List ClassifiedItem} {text : String} :
    emit printer .csv grouping config rows warnings deprecated = .ok text ↔
      ∃ precision records, precisionOf config = .ok precision ∧
        List.Forall₂ (fun row record => cells grouping precision row = .ok record) rows records ∧
        text = Csv.write printer.quotesReturns (columns grouping :: records) := by
  unfold emit precisionOf
  constructor
  · intro emitted
    obtain ⟨output, outputOk, emitted⟩ := Outcome.bind_eq_ok_iff.mp emitted
    obtain ⟨precision, precisionOk, emitted⟩ := Outcome.bind_eq_ok_iff.mp emitted
    obtain ⟨records, recordsOk, same⟩ := Outcome.bind_eq_ok_iff.mp emitted
    cases same
    exact ⟨precision, records, Outcome.bind_eq_ok_iff.mpr ⟨output, outputOk, precisionOk⟩,
      Outcome.mapM_eq_ok_iff.mp recordsOk, rfl⟩
  · rintro ⟨precision, records, precisionOk, recordsOk, rfl⟩
    obtain ⟨output, outputOk, precisionOk⟩ := Outcome.bind_eq_ok_iff.mp precisionOk
    refine Outcome.bind_eq_ok_iff.mpr ⟨output, outputOk, ?_⟩
    refine Outcome.bind_eq_ok_iff.mpr ⟨precision, precisionOk, ?_⟩
    exact Outcome.bind_eq_ok_iff.mpr ⟨records, Outcome.mapM_eq_ok_iff.mpr recordsOk, rfl⟩

/-- The category and the dimension of the row hold no carriage return and are short enough. -/
def Portable (row : Row) : Prop :=
  ∀ text ∈ row.category :: row.dimension.toList,
    '\r' ∉ text.toList ∧ text.length ≤ Csv.fieldLimit

instance (row : Row) : Decidable (Portable row) :=
  inferInstanceAs (Decidable (∀ text ∈ row.category :: row.dimension.toList,
    '\r' ∉ text.toList ∧ text.length ≤ Csv.fieldLimit))

/-- The ratios of the row are short enough with so many decimal places. -/
def RatiosFit (precision : Int) (row : Row) : Prop :=
  ∀ column ∈ Metrics.ratioColumns, ∀ text,
    formatRatio precision (column.2 row.metrics) = .ok text → text.length ≤ Csv.fieldLimit

theorem mem_keyCells {text : String} (member : text ∈ keyCells grouping row) :
    text ∈ row.category :: row.dimension.toList ∨ text = "" := by
  rcases List.mem_cons.mp member with rfl | member
  · exact .inl List.mem_cons_self
  · rw [Option.mem_toList, Option.map_eq_some_iff] at member
    obtain ⟨_, _, rfl⟩ := member
    cases row.dimension with
    | none => exact .inr rfl
    | some dimension => exact .inl (by simp)

theorem keyCells_of_portable (quoting : Bool) (grouping : Grouping) (portable : Portable row) :
    Csv.Sound quoting (keyCells grouping row) := by
  intro text member
  rcases mem_keyCells member with own | rfl
  · exact ⟨Csv.sealed_of_noReturn (portable text own).1, (portable text own).2⟩
  · exact ⟨Csv.sealed_of_noReturn (by decide), by decide⟩

theorem of_mem_countCells {text : String} {metrics : Metrics} (countable : Countable metrics)
    (member : text ∈ countCells metrics) :
    '\r' ∉ text.toList ∧ text.length ≤ Csv.fieldLimit := by
  obtain ⟨column, inside, rfl⟩ := List.mem_map.mp member
  constructor
  · rw [Number.toList_toString]
    intro impossible
    rcases Number.mem_numeral impossible with impossible | impossible <;> cases impossible
  · have short := Number.length_numeral_le (countable column inside)
    rw [← String.length_toList, Number.toList_toString]
    exact Nat.le_trans short (by decide)

variable {quoting : Bool} {records : List (List String)}

/-- Counts always pass the reader. -/
theorem sound_iff_of_cells {record : List String}
    (written : cells grouping precision row = .ok record) :
    Csv.Sound quoting record ↔
      Csv.Sound quoting (keyCells grouping row) ∧ RatiosFit precision row := by
  obtain ⟨countable, ratios, formatted, rfl⟩ := cells_eq_ok_iff.mp written
  have formatted := Outcome.mapM_eq_ok_iff.mpr formatted
  constructor
  · intro sound
    constructor
    · intro text key
      apply sound
      simp [key]
    · intro column inside text textOk
      obtain ⟨found, member, foundOk⟩ := Outcome.exists_mem_of_mapM formatted inside
      cases textOk.symm.trans foundOk
      exact (sound text (List.mem_append_right _ member)).2
  · rintro ⟨keys, ratiosFit⟩
    intro text member
    rcases List.mem_append.mp member with member | ratio
    · rcases List.mem_append.mp member with key | count
      · exact keys text key
      · obtain ⟨noReturn, short⟩ := of_mem_countCells countable count
        exact ⟨Csv.sealed_of_noReturn noReturn, short⟩
    · obtain ⟨column, inside, textOk⟩ := Outcome.exists_of_mem_mapM formatted ratio
      exact ⟨Csv.sealed_of_noReturn (return_not_mem_formatRatio textOk),
        ratiosFit column inside text textOk⟩

/-- The last cell of a row is a ratio, which holds no carriage return. -/
theorem finished_of_cells {record : List String}
    (written : cells grouping precision row = .ok record) : Csv.Finished quoting record := by
  obtain ⟨_, ratios, formatted, rfl⟩ := cells_eq_ok_iff.mp written
  have sameLength := formatted.length_eq
  rcases ratios.eq_nil_or_concat' with rfl | ⟨before, last, rfl⟩
  · cases sameLength
  · obtain ⟨column, _, textOk⟩ := Outcome.exists_of_mem_mapM
      (Outcome.mapM_eq_ok_iff.mpr formatted) (List.mem_append_right before List.mem_cons_self)
    exact ⟨_, last, (List.append_assoc _ _ _).symm,
      Csv.sealed_of_noReturn (return_not_mem_formatRatio textOk)⟩

theorem sound_columns (quoting : Bool) (grouping : Grouping) :
    Csv.Sound quoting (columns grouping) := by
  cases quoting <;> cases grouping <;> decide

theorem finished_columns (quoting : Bool) (grouping : Grouping) :
    Csv.Finished quoting (columns grouping) := by
  have filled : columns grouping ≠ [] := by simp [columns]
  refine ⟨_, _, (List.dropLast_append_getLast filled).symm, ?_⟩
  exact (sound_columns quoting grouping _ (List.getLast_mem filled)).1

theorem finished_report
    (written : List.Forall₂ (fun row record => cells grouping precision row = .ok record)
      rows records) : ∀ record ∈ columns grouping :: records, Csv.Finished quoting record := by
  refine List.forall_mem_cons.mpr ⟨finished_columns quoting grouping, ?_⟩
  intro record member
  obtain ⟨row, _, cellsOk⟩ :=
    Outcome.exists_of_mem_mapM (Outcome.mapM_eq_ok_iff.mpr written) member
  exact finished_of_cells cellsOk

/-- All records are sound exactly if all rows pass the reader. -/
theorem forall_sound_iff
    (written : List.Forall₂ (fun row record => cells grouping precision row = .ok record)
      rows records) :
    (∀ record ∈ records, Csv.Sound quoting record) ↔
      ∀ row ∈ rows, Csv.Sound quoting (keyCells grouping row) ∧ RatiosFit precision row := by
  have written := Outcome.mapM_eq_ok_iff.mpr written
  constructor
  · intro sound row member
    obtain ⟨record, inside, cellsOk⟩ := Outcome.exists_mem_of_mapM written member
    exact (sound_iff_of_cells cellsOk).mp (sound record inside)
  · intro pass record member
    obtain ⟨row, inside, cellsOk⟩ := Outcome.exists_of_mem_mapM written member
    exact (sound_iff_of_cells cellsOk).mpr (pass row inside)

theorem readCsv_of_sound
    (written : List.Forall₂ (fun row record => cells grouping precision row = .ok record)
      rows records) (sound : ∀ record ∈ records, Csv.Sound quoting record) :
    readCsv (Csv.write quoting (columns grouping :: records)) =
      .ok (rows.map (readBack grouping)) := by
  have body := readRows_append [] written
  rw [List.append_nil] at body
  unfold readCsv
  rw [Csv.read_write (finished_report written)
    (List.forall_mem_cons.mpr ⟨sound_columns quoting grouping, sound⟩)]
  change readRows (columns grouping) (records.map .ok) = _
  rw [body]
  exact congrArg Except.ok (List.append_nil _)

theorem readCsv_of_unsound
    (written : List.Forall₂ (fun row record => cells grouping precision row = .ok record)
      rows records) (unsound : ¬ ∀ record ∈ records, Csv.Sound quoting record) :
    readCsv (Csv.write quoting (columns grouping :: records)) = .error .csv := by
  rcases Outcome.forall_or_first (Csv.Sound quoting) records with
    sound | ⟨before, record, after, rfl, earlier, refused⟩
  · exact absurd sound unsound
  · have finished := @finished_report _ _ _ quoting _ written
    rw [← List.cons_append] at finished
    have records := Csv.read_write_of_unsound finished
      (List.forall_mem_cons.mpr ⟨sound_columns quoting grouping, earlier⟩) refused
    have body := readRows_append [.error .csv] (List.forall₂_take_append rows before _ written)
    unfold readCsv
    rw [← List.cons_append, records]
    change readRows (columns grouping) (before.map .ok ++ [.error .csv]) = _
    rw [body]
    rfl

/-- Only ratios can keep portable rows from being read. -/
theorem forall_sound_iff_ratiosFit (portable : ∀ row ∈ rows, Portable row)
    (written : List.Forall₂ (fun row record => cells grouping precision row = .ok record)
      rows records) :
    (∀ record ∈ records, Csv.Sound quoting record) ↔ ∀ row ∈ rows, RatiosFit precision row := by
  rw [forall_sound_iff written]
  apply forall₂_congr
  intro row inside
  exact and_iff_right (keyCells_of_portable quoting grouping (portable row inside))

theorem readCsv_of_fit (portable : ∀ row ∈ rows, Portable row)
    (written : List.Forall₂ (fun row record => cells grouping precision row = .ok record)
      rows records) (fit : ∀ row ∈ rows, RatiosFit precision row) :
    readCsv (Csv.write quoting (columns grouping :: records)) =
      .ok (rows.map (readBack grouping)) :=
  readCsv_of_sound written ((forall_sound_iff_ratiosFit portable written).mpr fit)

theorem readCsv_of_long (portable : ∀ row ∈ rows, Portable row)
    (written : List.Forall₂ (fun row record => cells grouping precision row = .ok record)
      rows records) (long : ¬ ∀ row ∈ rows, RatiosFit precision row) :
    readCsv (Csv.write quoting (columns grouping :: records)) = .error .csv :=
  readCsv_of_unsound written fun sound =>
    long ((forall_sound_iff_ratiosFit portable written).mp sound)

/-- A report written as comma-separated values is read back, unless a ratio is too long. -/
theorem report_read_back {printer : Printer} {config : Value} {warnings : List Cycle}
    {deprecated : List ClassifiedItem} {text : String} (portable : ∀ row ∈ rows, Portable row)
    (emitted : emit printer .csv grouping config rows warnings deprecated = .ok text) :
    ∃ precision, precisionOf config = .ok precision ∧
      ((∀ row ∈ rows, RatiosFit precision row) →
        readCsv text = .ok (rows.map (readBack grouping))) ∧
      ((∃ row ∈ rows, ¬ RatiosFit precision row) → readCsv text = .error .csv) := by
  obtain ⟨precision, records, precisionOk, written, rfl⟩ := emit_csv_eq_ok_iff.mp emitted
  refine ⟨precision, precisionOk, readCsv_of_fit portable written, ?_⟩
  rintro ⟨row, member, tooLong⟩
  exact readCsv_of_long portable written fun fit => tooLong (fit row member)

/-- Rows with commas, quotes, line feeds, an empty text and a blank at the start. -/
def awkwardRows : List Row :=
  [{ category := " a,\"b\"\n", dimension := some "\n\"", metrics := { count := -3, generics := 1 } },
    { category := "", dimension := none, metrics := { visible := 10, asyncFns := -1 } }]

/-- What is needed to write reports without text tables. -/
def tableless (quotesReturns : Bool) : Printer where
  drawTable _ _ _ _ := .error (.shape .unsuited)
  quotesReturns

theorem awkward_report_read_back : ∃ text,
    emit (tableless false) .csv .module (.record []) awkwardRows [] [] = .ok text ∧
      readCsv text = .ok (awkwardRows.map (readBack .module)) := by
  have written :
      (emit (tableless false) .csv .module (.record []) awkwardRows [] []).isOk = true := by
    decide +kernel
  have short : ∀ row ∈ awkwardRows, ∀ column ∈ Metrics.ratioColumns,
      (formatRatio 4 (column.2 row.metrics)).toOption.all (·.length ≤ Csv.fieldLimit) = true := by
    decide +kernel
  cases emitted : emit (tableless false) .csv .module (.record []) awkwardRows [] [] with
  | error cause => simp [emitted, Except.isOk, Except.toBool] at written
  | ok text =>
      obtain ⟨precision, precisionOk, restored, _⟩ :=
        report_read_back (by decide +kernel) emitted
      cases precisionOk
      refine ⟨text, rfl, restored ?_⟩
      intro row member column inside text formatted
      have fits := short row member column inside
      rw [formatted] at fits
      exact of_decide_eq_true fits

/-! ### Ratios that are too long -/

theorem ratio_of_empty {metrics : Metrics} (empty : metrics.count = 0)
    {column : String × (Metrics → Rat)} (inside : column ∈ Metrics.ratioColumns) :
    column.2 metrics = 0 := by
  have zero : ∀ part, Metrics.ratio part metrics.count = 0 := fun part => if_pos empty
  simp only [Metrics.ratioColumns, List.mem_cons, List.not_mem_nil, or_false] at inside
  rcases inside with rfl | rfl | rfl | rfl <;> exact zero _

theorem formatRatio_zero {count : Nat} (asked : places precision = .ok count) :
    formatRatio precision 0 = .ok ((Binary64.zero false).fixed count) := by
  unfold formatRatio
  rw [asked]
  rfl

/-- With so many decimal places even a zero is too long. -/
theorem not_ratiosFit_of_empty {count : Nat} (empty : row.metrics.count = 0)
    (asked : places precision = .ok count) (many : Csv.fieldLimit ≤ count) :
    ¬ RatiosFit precision row := by
  intro fit
  have inside : ("avg_generics", fun metrics => Metrics.ratio metrics.generics metrics.count) ∈
      Metrics.ratioColumns := List.mem_cons_self
  have short := fit _ inside _ (by rw [ratio_of_empty empty inside, formatRatio_zero asked])
  have positive : count ≠ 0 := by
    rintro rfl
    exact absurd many (by decide)
  have long := Binary64.length_fixed positive false 0 Binary64.leastExponent
  unfold Binary64.zero at short
  omega

/-- A row that counts nothing can be written, whatever the number of decimal places. -/
theorem cells_of_empty (grouping : Grouping) (row : Row) (empty : row.metrics = {}) {count : Nat}
    (asked : places precision = .ok count) :
    ∃ record, cells grouping precision row = .ok record := by
  have positive : ∀ digits, 0 < Nat.pow 10 digits := fun digits => Nat.pow_pos (by decide)
  have countable : Countable row.metrics := by
    rw [empty]
    intro column inside
    have zero : column.2 {} = 0 := by
      simp only [Metrics.columns, List.mem_cons, List.not_mem_nil, or_false] at inside
      rcases inside with rfl | rfl | rfl | rfl | rfl | rfl | rfl | rfl <;> rfl
    rw [zero]
    exact positive _
  obtain ⟨ratios, ratiosOk⟩ : ∃ ratios, (Metrics.ratioColumns.mapM fun column =>
      formatRatio precision (column.2 row.metrics)) = .ok ratios := by
    apply Outcome.exists_mapM_eq_ok
    intro column inside
    rw [ratio_of_empty (by rw [empty]) inside]
    exact ⟨_, formatRatio_zero asked⟩
  exact ⟨_, cells_eq_ok_iff.mpr ⟨countable, ratios, Outcome.mapM_eq_ok_iff.mp ratiosOk, rfl⟩⟩

/-- A configuration that asks for so many decimal places. -/
def placesConfig (precision : Int) : Value :=
  .ofFields [("output", .ofFields [("ratio_precision", .int precision)])]

/-- The report on a single row that counts nothing is not read back if ratios are written with
131072 decimal places. -/
theorem report_lost_in_places :
    Portable { category := "A" } ∧ ∀ printer : Printer, ∃ text,
      emit printer .csv .category (placesConfig 131072) [{ category := "A" }] [] [] = .ok text ∧
        readCsv text ≠ .ok [{ category := "A" }] := by
  have portable : Portable { category := "A" } := by decide
  have asked : places 131072 = .ok 131072 := rfl
  obtain ⟨record, written⟩ := cells_of_empty .category { category := "A" } rfl asked
  have allWritten : List.Forall₂ (fun row record => cells .category 131072 row = .ok record)
      [{ category := "A" }] [record] := .cons written .nil
  refine ⟨portable, fun printer => ⟨_, emit_csv_eq_ok_iff.mpr
    ⟨131072, [record], rfl, allWritten, rfl⟩, ?_⟩⟩
  rw [readCsv_of_long (List.forall_mem_singleton.mpr portable) allWritten fun fit =>
    not_ratiosFit_of_empty rfl asked (by decide) (fit _ (List.mem_singleton_self _))]
  exact nofun

end Report

end ApiCensus
