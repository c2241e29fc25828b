import ApiCensus.Report.Markdown

/-!
# Cells of Markdown tables

A cell may hold any text, and a line of a table is read by its pipes.  Backslashes are not escaped,
so a written cell may well end with one; but a blank stands between it and the pipe that ends the
cell, and each pipe of the cell itself has a backslash of its own before it.  Hence the pipes
without a backslash before them are those of the table, and its cells are read back as they were,
with blanks in place of line feeds.
-/

namespace ApiCensus.Markdown

/-! ### Reading a table -/

/-- The lines of a text, with line feeds between them. -/
def lines (text : String) : List String :=
  (text.toList.splitOn '\n').map String.ofList

/-- The pieces of a line between its pipes.  A pipe right after a backslash is `guarded`: it
belongs to its piece. -/
def pieces (guarded : Bool) : List Char → List (List Char)
  | [] => [[]]
  | c :: rest =>
      if c = '|' ∧ guarded = false then [] :: pieces false rest
      else (pieces (c = '\\') rest).modifyHead (c :: ·)

/-- What stands between two equal ends. -/
def between? {α : Type} [DecidableEq α] (edge : α) : List α → Option (List α)
  | [] => none
  | first :: rest =>
      if first = edge ∧ rest.getLast? = some edge then some rest.dropLast else none

/-- The characters with each backslash left out that stands before a pipe. -/
def unescape : List Char → List Char
  | [] => []
  | [c] => [c]
  | c :: d :: rest =>
      if c = '\\' ∧ d = '|' then '|' :: unescape rest else c :: unescape (d :: rest)

/-- The cell that a piece holds between its blanks. -/
def cell? (piece : List Char) : Option String :=
  (between? ' ' piece).map fun chars => String.ofList (unescape chars)

/-- The cells of a line, outside of whose pipes nothing stands. -/
def cells? (line : String) : Option (List String) :=
  (between? [] (pieces false line.toList)).bind (List.mapM cell?)

/-- A cell on one line. -/
def oneLine (cell : String) : String :=
  String.ofList (cell.toList.map fun c => if c = '\n' then ' ' else c)

/-- The text holds no pipe and no line feed. -/
def Plain (text : String) : Prop :=
  '|' ∉ text.toList ∧ '\n' ∉ text.toList

instance (text : String) : Decidable (Plain text) :=
  inferInstanceAs (Decidable (_ ∧ _))

theorem between?_of_ends {α : Type} [DecidableEq α] (edge : α) (inner : List α) :
    between? edge (edge :: (inner ++ [edge])) = some inner := by
  simp [between?]

/-! ### Written cells -/

theorem escapeChar_of_other {c : Char} (noPipe : c ≠ '|') :
    escapeChar c = [if c = '\n' then ' ' else c] := by
  rw [escapeChar, if_neg noPipe]
  split <;> rfl

/-- A text without pipes and line feeds is written on one line as it is. -/
theorem oneLine_of_plain {name : String} (plain : Plain name) : oneLine name = name := by
  rw [← String.toList_inj, oneLine, String.toList_ofList]
  refine (List.map_congr_left fun c member => ?_).trans (List.map_id _)
  exact if_neg fun lineFeed : c = '\n' => plain.2 (lineFeed ▸ member)

theorem escape_of_plain {name : String} (plain : Plain name) : escape name = name := by
  have single : name.toList.flatMap escapeChar =
      name.toList.map fun c => if c = '\n' then ' ' else c := by
    rw [List.map_eq_flatMap, List.flatMap_def, List.flatMap_def]
    refine congrArg List.flatten (List.map_congr_left fun c member => ?_)
    exact escapeChar_of_other fun pipe => plain.1 (pipe ▸ member)
  rw [escape, single]
  exact oneLine_of_plain plain

theorem lineFeed_notMem_escape (cell : String) : '\n' ∉ (escape cell).toList := by
  rw [escape, String.toList_ofList, List.mem_flatMap]
  rintro ⟨c, _, member⟩
  by_cases pipe : c = '|'
  · subst pipe
    simp [escapeChar] at member
  · rw [escapeChar_of_other pipe, List.mem_singleton] at member
    split at member
    · cases member
    · exact ‹¬ c = '\n'› member.symm

/-- A written text never starts with a pipe. -/
theorem head?_escaped_ne (chars : List Char) : (chars.flatMap escapeChar).head? ≠ some '|' := by
  cases chars with
  | nil => simp
  | cons c rest =>
      rw [List.flatMap_cons]
      by_cases pipe : c = '|'
      · simp [pipe, escapeChar]
      · rw [escapeChar_of_other pipe]
        split <;> simp [pipe]

theorem unescape_cons_of_head? {c : Char} {rest : List Char} (noPipe : rest.head? ≠ some '|') :
    unescape (c :: rest) = c :: unescape rest := by
  cases rest with
  | nil => rfl
  | cons d rest =>
      rw [unescape, if_neg]
      rintro ⟨_, rfl⟩
      exact noPipe rfl

theorem unescape_escaped (chars : List Char) :
    unescape (chars.flatMap escapeChar) = chars.map fun c => if c = '\n' then ' ' else c := by
  induction chars with
  | nil => rfl
  | cons c rest induction =>
      rw [List.flatMap_cons, List.map_cons, ← induction]
      by_cases pipe : c = '|'
      · subst pipe
        rfl
      · rw [escapeChar_of_other pipe, List.singleton_append,
          unescape_cons_of_head? (head?_escaped_ne rest)]

theorem unescape_escape (cell : String) :
    String.ofList (unescape (escape cell).toList) = oneLine cell := by
  rw [escape, String.toList_ofList, unescape_escaped, oneLine]

/-! ### Lines of cells -/

theorem pieces_of_other {c : Char} (noPipe : c ≠ '|') (guarded : Bool) (rest : List Char) :
    pieces guarded (c :: rest) = (pieces (c = '\\') rest).modifyHead (c :: ·) := by
  rw [pieces, if_neg fun divides => noPipe divides.1]

/-- The pipe after a written text and a blank ends the piece, whatever stands before the text. -/
theorem pieces_escaped (guarded : Bool) (chars rest : List Char) :
    pieces guarded (chars.flatMap escapeChar ++ ' ' :: '|' :: rest) =
      (chars.flatMap escapeChar ++ [' ']) :: pieces false rest := by
  induction chars generalizing guarded with
  | nil => simp [pieces]
  | cons c more induction =>
      rw [List.flatMap_cons, List.append_assoc, List.append_assoc]
      by_cases pipe : c = '|'
      · subst pipe
        -- The backslash guards the pipe, and the pipe guards nothing.
        have step : ∀ tail, pieces guarded ('\\' :: '|' :: tail) =
            (pieces false tail).modifyHead ('\\' :: '|' :: ·) := by
          intro tail
          rw [pieces_of_other (by decide)]
          simp [pieces, Function.comp_def]
        refine (step _).trans ?_
        rw [List.append_eq, List.nil_append, induction]
        rfl
      · rw [escapeChar_of_other pipe, List.singleton_append, pieces_of_other, induction]
        · rfl
        · split
          · decide
          · exact pipe

/-- A written cell between its blanks. -/
def padded (cell : String) : List Char :=
  ' ' :: ((escape cell).toList ++ [' '])

theorem pieces_cell (cell : String) (rest : List Char) :
    pieces false (' ' :: ((escape cell).toList ++ ' ' :: '|' :: rest)) =
      padded cell :: pieces false rest := by
  rw [pieces_of_other (by decide), escape, String.toList_ofList, pieces_escaped, padded, escape,
    String.toList_ofList]
  rfl

/-- The characters of a line after its first pipe. -/
theorem toList_line (cells : List String) :
    (line cells).toList =
      '|' :: ' ' :: ([' ', '|', ' '].intercalate (cells.map String.toList) ++ [' ', '|']) := by
  rw [line, String.toList_append, String.toList_append, String.toList_intercalate]
  rfl

theorem pieces_cells (first : String) (others : List String) :
    pieces false (' ' :: ([' ', '|', ' '].intercalate
      (((first :: others).map escape).map String.toList) ++ [' ', '|'])) =
      (first :: others).map padded ++ [[]] := by
  induction others generalizing first with
  | nil => simpa [pieces] using pieces_cell first []
  | cons second others induction =>
      have here := pieces_cell first (' ' :: ([' ', '|', ' '].intercalate
        (((second :: others).map escape).map String.toList) ++ [' ', '|']))
      rw [induction second] at here
      rw [List.map_cons, List.map_cons, List.map_cons, List.map_cons, List.intercalate_cons_cons,
        List.append_assoc, List.append_assoc]
      exact here

theorem pieces_line {cells : List String} (nonempty : cells ≠ []) :
    pieces false (line (cells.map escape)).toList = [] :: (cells.map padded ++ [[]]) := by
  obtain ⟨first, others, rfl⟩ := List.exists_cons_of_ne_nil nonempty
  rw [toList_line, pieces, if_pos ⟨rfl, rfl⟩, pieces_cells]

theorem cell?_padded (cell : String) : cell? (padded cell) = some (oneLine cell) := by
  rw [cell?, padded, between?_of_ends, Option.map_some, unescape_escape]

/-- The cells of a written row are read back. -/
theorem cells?_line {cells : List String} (nonempty : cells ≠ []) :
    cells? (line (cells.map escape)) = some (cells.map oneLine) := by
  rw [cells?, pieces_line nonempty, between?_of_ends, Option.bind_some, List.mapM_map]
  have each : cell? ∘ padded = fun cell => pure (oneLine cell) := funext cell?_padded
  rw [each, List.mapM_pure]
  rfl

/-! ### Tables -/

theorem mem_intercalate {separator : List Char} {parts : List (List Char)} {c : Char}
    (member : c ∈ separator.intercalate parts) : c ∈ separator ∨ ∃ part ∈ parts, c ∈ part := by
  induction parts with
  | nil => simp at member
  | cons first others induction =>
      cases others with
      | nil => exact .inr ⟨first, List.mem_cons_self, by simpa using member⟩
      | cons second others =>
          simp only [List.intercalate_cons_cons, List.mem_append] at member
          rcases member with (inFirst | inSeparator) | later
          · exact .inr ⟨first, List.mem_cons_self, inFirst⟩
          · exact .inl inSeparator
          · refine (induction later).imp_right ?_
            rintro ⟨part, listed, inside⟩
            exact ⟨part, List.mem_cons_of_mem first listed, inside⟩

theorem lineFeed_notMem_line {cells : List String} (each : ∀ cell ∈ cells, '\n' ∉ cell.toList) :
    '\n' ∉ (line cells).toList := by
  rw [toList_line]
  intro member
  have inside : '\n' ∈ [' ', '|', ' '].intercalate (cells.map String.toList) := by
    simpa using member
  rcases mem_intercalate inside with impossible | ⟨_, listed, inCell⟩
  · simp at impossible
  · obtain ⟨cell, known, rfl⟩ := List.mem_map.mp listed
    exact each cell known inCell

theorem lineFeed_notMem_rule (aligned : List Bool) : '\n' ∉ (rule aligned).toList := by
  apply lineFeed_notMem_line
  intro cell member
  obtain ⟨right, _, rfl⟩ := List.mem_map.mp member
  cases right <;> decide

theorem lineFeed_notMem_row (row : List String) : '\n' ∉ (line (row.map escape)).toList := by
  apply lineFeed_notMem_line
  intro cell member
  obtain ⟨content, _, rfl⟩ := List.mem_map.mp member
  exact lineFeed_notMem_escape content

theorem lines_intercalate {parts : List String} (nonempty : parts ≠ [])
    (each : ∀ part ∈ parts, '\n' ∉ part.toList) : lines ("\n".intercalate parts) = parts := by
  have split : ("\n".intercalate parts).toList.splitOn '\n' = parts.map String.toList := by
    rw [String.toList_intercalate]
    apply List.splitOn_intercalate
    · simpa using each
    · simpa using nonempty
  rw [lines, split, List.map_map]
  simp [Function.comp_def]

theorem map_escape_of_plain {header : List String}
    (plain : ∀ name ∈ header, Plain name) :
    header.map escape = header ∧ header.map oneLine = header :=
  ⟨(List.map_congr_left fun name member => escape_of_plain (plain name member)).trans
      (List.map_id _),
    (List.map_congr_left fun name member => oneLine_of_plain (plain name member)).trans
      (List.map_id _)⟩

/-- The lines of a table are its header, its rule and its rows. -/
theorem lines_table {header : List String} (columns : header ≠ [])
    (plain : ∀ name ∈ header, Plain name) (rows : List (List String)) (aligned : List Bool) :
    ∃ below, lines (table header rows aligned) =
      line (header.map escape) :: below :: rows.map fun row => line (row.map escape) := by
  have filled : header.isEmpty = false := by simpa using columns
  rw [table, filled, (map_escape_of_plain plain).1]
  refine ⟨_, lines_intercalate (List.cons_ne_nil _ _) ?_⟩
  simp only [List.forall_mem_cons, List.forall_mem_map]
  refine ⟨?_, lineFeed_notMem_rule _, fun row _ => lineFeed_notMem_row row⟩
  exact lineFeed_notMem_line fun name member => (plain name member).2

/-- A table has a line for its header, one for its rule and one for each row, and the cells of all
rows are read back from these lines, with blanks in place of line feeds. -/
theorem table_read_back {header : List String} (columns : header ≠ [])
    (plain : ∀ name ∈ header, Plain name) {rows : List (List String)}
    (widths : ∀ row ∈ rows, row.length = header.length) (aligned : List Bool) :
    (lines (table header rows aligned)).length = 2 + rows.length ∧
    (lines (table header rows aligned)).head?.bind cells? = some header ∧
    ((lines (table header rows aligned)).drop 2).map cells? =
      rows.map fun row => some (row.map oneLine) := by
  obtain ⟨below, split⟩ := lines_table columns plain rows aligned
  rw [split]
  refine ⟨by simp; omega, ?_, ?_⟩
  · rw [List.head?_cons, Option.bind_some, cells?_line columns, (map_escape_of_plain plain).2]
  · rw [List.drop_succ_cons, List.drop_succ_cons, List.drop_zero, List.map_map]
    apply List.map_congr_left
    intro row member
    apply cells?_line
    rintro rfl
    exact columns (List.length_eq_zero_iff.mp (widths [] member).symm)

/-- Cells that end with a backslash, start with a pipe, or are empty. -/
def awkwardRows : List (List String) :=
  [["\\", "|\n"], ["\\|", ""]]

theorem awkward_table_read_back :
    table ["a", "b"] awkwardRows [] =
      "| a | b |\n| --- | --- |\n| \\ | \\|  |\n| \\\\| |  |" ∧
    (lines (table ["a", "b"] awkwardRows [])).length = 4 ∧
    ((lines (table ["a", "b"] awkwardRows [])).drop 2).map cells? =
      [some ["\\", "| "], some ["\\|", ""]] := by
  have read := table_read_back (List.cons_ne_nil "a" ["b"]) (by decide)
    (by decide : ∀ row ∈ awkwardRows, row.length = 2) []
  exact ⟨by decide, read.1, read.2.2.trans (by decide)⟩

end ApiCensus.Markdown
