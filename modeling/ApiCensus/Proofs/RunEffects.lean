import ApiCensus.Proofs.CommandRuns
import ApiCensus.Proofs.ReportRoundTrip

/-!
# What a run leaves behind

A run that stops early prints nothing, writes nothing and leaves all files as they were, wherever
it stops: at the configuration, at any of the inputs, in the analysis, while the text is composed,
or because its file cannot be written.  Otherwise its text goes to one place, the output or the
file that is asked for, and does not depend on which of them it is.
-/

namespace ApiCensus

namespace CommandLine

/-! ### Traces of a run -/

theorem printed?_remarks (remarks : List Remark) :
    (remarks.map Act.remark).filterMap Act.printed? = [] := by
  simp [Act.printed?]

theorem written?_remarks (remarks : List Remark) :
    (remarks.map Act.remark).filterMap Act.written? = [] := by
  simp [Act.written?]

namespace Outcome

variable {disk : Files.Disk}

/-- The run has written no file at any time, and all files are as they were. -/
structure KeepsFiles (outcome : Outcome disk) (files : disk.State) : Prop where
  acts : outcome.world.acts.filterMap Act.written? = []
  files : outcome.world.files = files

/-- The run has written a single file, once, to this content, and no other file has changed. -/
structure SetsFile (outcome : Outcome disk) (files : disk.State) (path : Files.Path)
    (content : List UInt8) : Prop where
  acts : outcome.world.acts.filterMap Act.written? = [(path, content)]
  files : ∃ file, disk.locate files path = .ok file ∧
    disk.content? outcome.world.files file = some content ∧
    ∀ other, other ≠ file →
      disk.content? outcome.world.files other = disk.content? files other

/-- Only what comes after the remarks is printed. -/
theorem output_eq (ending : Ending) (files : disk.State) (remarks : List Remark)
    (acts : List Act) :
    Outcome.output ⟨ending, files, remarks.map .remark ++ acts⟩ =
      String.join (acts.filterMap Act.printed?) := by
  rw [Outcome.output, List.filterMap_append, printed?_remarks, List.nil_append]

end Outcome

namespace Halt

variable {disk : Files.Disk}

theorem output_outcome (halt : Halt) (files : disk.State) (remarks : List Remark) :
    (halt.outcome files remarks).output = "" := by
  have unprinted : halt.lastWords.filterMap Act.printed? = [] := by
    unfold lastWords
    cases halt.words? <;> rfl
  rw [outcome, Outcome.output_eq, unprinted]
  rfl

theorem keepsFiles_outcome (halt : Halt) (files : disk.State) (remarks : List Remark) :
    (halt.outcome files remarks).KeepsFiles files where
  acts := by
    have unwritten : halt.lastWords.filterMap Act.written? = [] := by
      unfold lastWords
      cases halt.words? <;> rfl
    rw [outcome, List.filterMap_append, written?_remarks, unwritten, List.append_nil]
  files := rfl

end Halt

namespace Request

variable {request : Request} {host : Host} {files : host.disk.State} {text : String}
  {outcome : Outcome host.disk}

/-- The same request with its text printed. -/
def printing (request : Request) : Request :=
  { request with output := none }

/-- The file that is asked for, if any, can be written. -/
def Writable (request : Request) (host : Host) (files : host.disk.State) (text : String) : Prop :=
  ∀ path ∈ request.output, ∃ after,
    host.disk.write files path (Text.Utf8.encode text) = .ok after

/-- A text without a file is printed. -/
theorem Delivers.of_none (delivers : Delivers request host files text outcome)
    (unset : request.output = none) :
    outcome.ending = .exit 0 ∧ outcome.output = text ∧ outcome.KeepsFiles files := by
  cases delivers with
  | printed remarks =>
      refine ⟨rfl, ?_, ?_, rfl⟩
      · rw [Outcome.output_eq]
        simp [Act.printed?, String.join]
      · rw [List.filterMap_append, written?_remarks]
        rfl
  | written _ _ set => cases unset.symm.trans set
  | refused _ set => cases unset.symm.trans set

/-- A text with a file that can be written is in this file. -/
theorem Delivers.of_some (delivers : Delivers request host files text outcome)
    {path : Files.Path} (set : request.output = some path) {after : host.disk.State}
    (written : host.disk.write files path (Text.Utf8.encode text) = .ok after) :
    outcome.ending = .exit 0 ∧ outcome.output = "" ∧
      outcome.SetsFile files path (Text.Utf8.encode text) := by
  cases delivers with
  | printed _ unset => cases unset.symm.trans set
  | written remarks later otherSet otherWritten =>
      cases set.symm.trans otherSet
      refine ⟨rfl, ?_, ?_, host.disk.content_of_write otherWritten⟩
      · rw [Outcome.output_eq, List.filterMap_cons_none rfl, printed?_remarks]
        rfl
      · rw [List.filterMap_append, written?_remarks, List.nil_append]
        exact congrArg (List.cons _) (written?_remarks later)
  | refused _ otherSet refused =>
      cases set.symm.trans otherSet
      cases written.symm.trans refused

/-- A run whose file cannot be written stops there. -/
theorem Delivers.of_unwritable (delivers : Delivers request host files text outcome)
    (unwritable : ¬ Writable request host files text) :
    ∃ halt remarks, outcome = Halt.outcome halt files remarks := by
  cases delivers with
  | printed _ unset =>
      refine absurd ?_ unwritable
      intro path set
      cases unset.symm.trans set
  | written _ _ set written =>
      refine absurd ?_ unwritable
      intro path otherSet
      cases set.symm.trans otherSet
      exact ⟨_, written⟩
  | refused remarks => exact ⟨_, remarks, rfl⟩

variable {config : Value} {contents : List (List UInt8)}

/-- The text goes where it is asked for, if it can be composed and written. -/
theorem run_of_composes (composes : Composes request host files config contents text)
    (writable : Writable request host files text) :
    (request.run host files).ending = .exit 0 ∧
    (request.output = none →
      (request.run host files).output = text ∧ (request.run host files).KeepsFiles files) ∧
    ∀ path, request.output = some path → (request.run host files).output = "" ∧
      (request.run host files).SetsFile files path (Text.Utf8.encode text) := by
  have delivers := delivers_of_composed (composed_eq_ok_iff.mpr ⟨config, contents, composes⟩)
  cases output : request.output with
  | none =>
      obtain ⟨exit, printed, kept⟩ := delivers.of_none output
      exact ⟨exit, fun _ => ⟨printed, kept⟩, nofun⟩
  | some path =>
      obtain ⟨after, written⟩ := writable path output
      obtain ⟨exit, silent, sets⟩ := delivers.of_some output written
      refine ⟨exit, nofun, ?_⟩
      rintro _ ⟨⟩
      exact ⟨silent, sets⟩

/-- Otherwise the run stops. -/
theorem run_of_not_composes (failed : ¬ ∃ config contents text,
      Composes request host files config contents text ∧ Writable request host files text) :
    ∃ halt remarks, request.run host files = Halt.outcome halt files remarks := by
  cases composed : request.composed host files with
  | error halt => exact ⟨halt, run_of_composed_error composed⟩
  | ok text =>
      obtain ⟨config, contents, composes⟩ := composed_eq_ok_iff.mp composed
      apply (delivers_of_composed composed).of_unwritable
      exact fun writable => failed ⟨config, contents, text, composes, writable⟩

/-- The same text is printed if no file is asked for. -/
theorem run_printing_of_composes (composes : Composes request host files config contents text) :
    (request.printing.run host files).ending = .exit 0 ∧
      (request.printing.run host files).output = text := by
  have same : Composes request.printing host files config contents text :=
    ⟨composes.configOk, composes.inputsOk, composes.rendered⟩
  obtain ⟨exit, printed, _⟩ := run_of_composes same nofun
  exact ⟨exit, (printed rfl).1⟩

end Request

open Request

variable {arguments : List String} {request : Request}

theorem run_of_parsed (parsed : Request.parse arguments = .ok request) (host : Host)
    (files : host.disk.State) : run host files arguments = request.run host files := by
  simp only [run, parsed]

/-- A run that is asked for something exits with zero, exits with one, or a failure escapes it.
If it does not exit with zero, it prints nothing and leaves all files alone.  If it does, it has
composed its text from all its inputs: without a file to write to, it prints this text and no
file changes; with one, it prints nothing and this file alone changes, to what the same request
prints that names no file.  It exits with zero exactly if the text can be composed and the file
can be written. -/
theorem run_all_or_nothing (parsed : Request.parse arguments = .ok request) (host : Host)
    (files : host.disk.State) :
    let outcome := run host files arguments
    (outcome.ending = .exit 0 ∨ outcome.ending = .exit 1 ∨
      ∃ cause, outcome.ending = .escape cause) ∧
    (outcome.ending ≠ .exit 0 → outcome.output = "" ∧ outcome.KeepsFiles files) ∧
    (outcome.ending = .exit 0 → ∃ config contents text,
      Composes request host files config contents text ∧
      (∀ plain, Request.parse plain = .ok request.printing →
        (run host files plain).ending = .exit 0 ∧ (run host files plain).output = text) ∧
      (request.output = none → outcome.output = text ∧ outcome.KeepsFiles files) ∧
      (∀ path, request.output = some path →
        outcome.output = "" ∧ outcome.SetsFile files path (Text.Utf8.encode text))) ∧
    (outcome.ending = .exit 0 ↔ ∃ config contents text,
      Composes request host files config contents text ∧ Writable request host files text) := by
  dsimp only
  rw [run_of_parsed parsed]
  by_cases succeeds : ∃ config contents text,
      Composes request host files config contents text ∧ Writable request host files text
  · obtain ⟨config, contents, text, composes, writable⟩ := succeeds
    obtain ⟨exit, printed, written⟩ := run_of_composes composes writable
    refine ⟨.inl exit, fun failed => absurd exit failed, fun _ => ⟨config, contents, text, composes,
      ?_, printed, written⟩, fun _ => ⟨config, contents, text, composes, writable⟩, fun _ => exit⟩
    intro plain plainParsed
    rw [run_of_parsed plainParsed]
    exact run_printing_of_composes composes
  · obtain ⟨halt, remarks, same⟩ := run_of_not_composes succeeds
    rw [same]
    have failed := halt.ending_ne_exit
    exact ⟨.inr halt.ending_cases,
      fun _ => ⟨halt.output_outcome files remarks, halt.keepsFiles_outcome files remarks⟩,
      fun exit => absurd exit failed, fun exit => absurd exit failed,
      fun composed => absurd composed succeeds⟩

end CommandLine

/-! ### A report of an index with a root only -/

namespace Index

theorem load_bytes {content : List UInt8} {text : String} {document : Document}
    (decoded : Text.Utf8.decode content = .ok text) (loaded : load (.text text) = .ok document) :
    load (.bytes content) = .ok document := by
  obtain ⟨_, top, same, topOk, documentOk⟩ := load_eq_ok_iff.mp loaded
  cases same
  exact load_eq_ok_iff.mpr ⟨text, top, Outcome.mapError_eq_ok_iff.mpr decoded, topOk, documentOk⟩

theorem load_rootBytes :
    load (.bytes (Text.Utf8.encode (rootText "a"))) = .ok (rootDocument "a") := by
  have decoded : Text.Utf8.decode (Text.Utf8.encode (rootText "a")) = .ok (rootText "a") := by
    decide +kernel
  exact load_bytes decoded (load_rootText rfl (read_rootText (Json.plain_of_all (by decide))))

/-- Nothing declares a visibility for the root. -/
theorem effectiveVisibility_root (name : String) (resolution : Resolution) :
    Census.effectiveVisibility (rootDocument name) resolution (rootItem name) = .everywhere := by
  unfold Census.effectiveVisibility
  have inherited : (rootItem name).visibility = .inherited := rfl
  rw [Census.visibilityFrom, if_pos inherited]
  split
  · rfl
  · rename_i container _
    split
    · rfl
    · rename_i unseen
      have absent : (rootDocument name).item? container = none := by
        apply List.find?_eq_none.mpr
        intro item member same
        rw [List.mem_singleton.mp member, beq_iff_eq] at same
        exact unseen (by simp [same])
      split
      · rfl
      · rename_i found
        cases absent.symm.trans found

/-- The row of the root. -/
def rootRow : Row where
  category := "Other"
  dimension := none
  metrics := { count := 1, visible := 1 }

theorem rows_of_root {source : Source} {name : String}
    (loaded : load source = .ok (rootDocument name)) {analysis : Analysis}
    (succeeded : Analysis.run [source] .category Config.defaults = .ok analysis) :
    analysis.rows = [rootRow] := by
  obtain ⟨resolution, settings, classified, settingsOk, classifiedOk, items⟩ :=
    items_of_root loaded succeeded
  obtain ⟨_, _, _, rows⟩ := Analysis.items_of_run succeeded
  cases settingsOk
  have visibility := effectiveVisibility_root name resolution
  unfold Census.classifyItem at classifiedOk
  rw [visibility] at classifiedOk
  cases classifiedOk
  rw [rows, items]
  exact List.mergeSort_singleton _

end Index

namespace CommandLine

/-- A tree with nothing but the index of a root. -/
def rootTree : Files.Tree where
  files := [(["i.json"], Text.Utf8.encode (Index.rootText "a"))]

/-- A host with a tree of files, for reports that need no settings and no tables. -/
def rootHost : Host where
  disk := Files.treeDisk
  settings _ := .error .yaml
  printer := Report.tableless false

/-- The report of this index. -/
def rootReport : String :=
  "category,count,public,deprecated,unstable,documented,generics,const_fns,async_fns," ++
    "avg_generics,public_ratio,deprecated_ratio,documented_ratio\n" ++
    "Other,1,1,0,0,0,0,0,0,0.0000,1.0000,0.0000,0.0000\n"

/-- The request for a report of this index. -/
def rootRequest (output : Option Files.Path) : Request :=
  ⟨.report .csv .category, [.ofText "i.json"], none, output, 0⟩

theorem consume_root : (Request.taskGrammar "csv").parse ["i.json", "-o", "r"] =
    .ok { options := [("--output", "r")], operands := ["i.json"] } := by
  have pieces : (Request.taskGrammar "csv").pieces ["i.json", "-o", "r"] =
      .ok [.operand "i.json",
        .option "-o" ⟨some ⟨["-o", "--output"], .value .anything⟩, "-o", none⟩,
        .operand "r"] := rfl
  refine Outcome.bind_eq_ok_iff.mpr ⟨_, pieces, ?_⟩
  simp only [consume, Request.taskGrammar, Candidate.cluster, Arguments.takeAll]
  rfl

theorem parse_root : Request.parse ["csv", "i.json", "-o", "r"] =
    .ok (rootRequest (some (.ofText "r"))) := by
  refine Outcome.bind_eq_ok_iff.mpr ⟨{ operands := ["csv", "i.json", "-o", "r"] }, rfl, ?_⟩
  refine Outcome.bind_eq_ok_iff.mpr ⟨_, Outcome.mapError_eq_ok_iff.mpr consume_root, rfl⟩

theorem parse_plain : Request.parse ["csv", "i.json"] = .ok (rootRequest none) := rfl

theorem emit_root (warnings : List Cycle) (deprecated : List ClassifiedItem) :
    Report.emit (Report.tableless false) .csv .category Config.defaults [Index.rootRow] warnings
      deprecated = .ok rootReport := by
  have shown : (Report.cells .category 4 Index.rootRow).toOption = some ["Other", "1", "1", "0",
      "0", "0", "0", "0", "0", "0.0000", "1.0000", "0.0000", "0.0000"] := by
    decide +kernel
  cases written : Report.cells .category 4 Index.rootRow with
  | error cause =>
      rw [written] at shown
      cases shown
  | ok record =>
      rw [written] at shown
      cases shown
      exact Report.emit_csv_eq_ok_iff.mpr ⟨4, _, rfl, .cons written .nil, by decide +kernel⟩

theorem composes_root (output : Option Files.Path) :
    Request.Composes (rootRequest output) rootHost rootTree Config.defaults
      [Text.Utf8.encode (Index.rootText "a")] rootReport := by
  obtain ⟨analysis, succeeded⟩ := (Config.regular_defaults.exists_run_iff Index.load_rootBytes
    .category).mpr (Index.ordersContainers_root "a")
  have readOk : rootTree.read (.ofText "i.json") = .ok (Text.Utf8.encode (Index.rootText "a")) := by
    decide +kernel
  refine ⟨rfl, .cons readOk .nil, .report succeeded ?_⟩
  rw [Index.rows_of_root Index.load_rootBytes succeeded]
  exact emit_root _ _

theorem root_all_or_nothing :
    let outcome := run rootHost rootTree ["csv", "i.json", "-o", "r"]
    outcome.ending = .exit 0 ∧ outcome.output = "" ∧
      outcome.SetsFile rootTree (.ofText "r") (Text.Utf8.encode rootReport) ∧
      (run rootHost rootTree ["csv", "i.json"]).output = rootReport := by
  obtain ⟨_, _, done, succeeds⟩ := run_all_or_nothing parse_root rootHost rootTree
  have composes := composes_root (some (.ofText "r"))
  have writable : Request.Writable (rootRequest (some (.ofText "r"))) rootHost rootTree
      rootReport := by
    rintro path ⟨⟩
    exact ⟨_, rfl⟩
  have exit := succeeds.mpr ⟨_, _, _, composes, writable⟩
  obtain ⟨_, _, text, found, plain, _, written⟩ := done exit
  have same : text = rootReport := Except.ok.inj
    ((Request.composed_eq_ok_iff.mpr ⟨_, _, found⟩).symm.trans
      (Request.composed_eq_ok_iff.mpr ⟨_, _, composes⟩))
  subst same
  obtain ⟨silent, sets⟩ := written _ rfl
  exact ⟨exit, silent, sets, (plain _ parse_plain).2⟩

end CommandLine

end ApiCensus
