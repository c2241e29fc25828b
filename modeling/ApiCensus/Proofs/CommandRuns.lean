import ApiCensus.CommandLine.Run
import ApiCensus.Proofs.AnalysisStages

/-!
# What a run of the command line comes to

Until its text is composed, a run only makes remarks, and a last complaint if it stops at a
failure that there are words for.  What it comes to does not depend on the remarks: a request
does what loading a configuration, reading the inputs, analysing them and composing a text do
one after the other.  A text is delivered exactly if all of them succeed, and the first input
that fails decides how a run ends otherwise.
-/

namespace ApiCensus

namespace CommandLine

/-- A failure that a run stops at, with the words for it if there are any. -/
structure Halt where
  words? : Option String
  cause : Failure

namespace Halt

/-- Stop at a failure. -/
def on (words? : Failure → Option String) (cause : Failure) : Halt :=
  ⟨words? cause, cause⟩

/-- How the run ends. -/
def ending (halt : Halt) : Ending :=
  match halt.words? with
  | some _ => .exit 1
  | none => .escape halt.cause

theorem ending_ne_exit (halt : Halt) : halt.ending ≠ .exit 0 := by
  unfold ending
  split <;> simp

theorem ending_cases (halt : Halt) :
    halt.ending = .exit 1 ∨ ∃ cause, halt.ending = .escape cause := by
  unfold ending
  split
  · exact .inl rfl
  · exact .inr ⟨_, rfl⟩

/-- What the run says last. -/
def lastWords (halt : Halt) : List Act :=
  halt.words?.toList.map .complain

/-- What a run leaves that stops here, after some remarks. -/
def outcome {disk : Files.Disk} (halt : Halt) (files : disk.State) (remarks : List Remark) :
    Outcome disk :=
  ⟨halt.ending, files, remarks.map .remark ++ halt.lastWords⟩

end Halt

/-! ### Sessions that only speak -/

namespace Session

variable {disk : Files.Disk} {files : disk.State} {α β : Type}

/-- What is said besides remarks on the way to an outcome. -/
def lastWords : Except Halt α → List Act
  | .ok _ => []
  | .error halt => halt.lastWords

/-- With these files the session comes to the outcome, whatever has been done before.  On the way
it makes remarks and leaves the files alone. -/
def Yields (files : disk.State) (session : Session disk α) (outcome : Except Halt α) : Prop :=
  ∀ acts, ∃ remarks : List Remark, session.run.run ⟨files, acts⟩ =
    (outcome.mapError Halt.ending, ⟨files, acts ++ (remarks.map .remark ++ lastWords outcome)⟩)

theorem yields_pure (value : α) : Yields files (pure value) (.ok value) := by
  intro acts
  refine ⟨[], ?_⟩
  rw [List.map_nil, List.nil_append, lastWords, List.append_nil]
  rfl

theorem yields_files : Yields files Session.files (.ok files) := by
  intro acts
  refine ⟨[], ?_⟩
  rw [List.map_nil, List.nil_append, lastWords, List.append_nil]
  rfl

theorem yields_note (verbosity : Nat) (remarks : List Remark) :
    Yields files (note verbosity remarks) (.ok ()) := by
  intro acts
  refine ⟨remarks.filter (·.severity.isShown verbosity), ?_⟩
  rw [lastWords, List.append_nil]
  rfl

theorem yields_orEnd (words? : Failure → Option String) (result : Except Failure α) :
    Yields files (orEnd words? result) (result.mapError (Halt.on words?)) := by
  cases result with
  | ok value => exact yields_pure value
  | error cause =>
      intro acts
      refine ⟨[], ?_⟩
      simp only [orEnd, Except.mapError, lastWords, Halt.lastWords, Halt.ending, Halt.on,
        List.map_nil, List.nil_append]
      cases words? cause with
      | none =>
          rw [Option.toList_none, List.map_nil, List.append_nil]
          rfl
      | some line => rfl

theorem run_get (world : World disk) :
    StateT.run (ExceptT.run (get : Session disk (World disk))) world =
      pure (Except.ok world, world) :=
  rfl

theorem run_write_of_ok {path : Files.Path} {content : List UInt8} {after : disk.State}
    (written : disk.write files path content = .ok after) (acts : List Act) :
    (Session.write path content).run.run (⟨files, acts⟩ : World disk) =
      pure (.ok (.ok ()), ⟨after, acts ++ [.write path content]⟩) := by
  unfold Session.write
  rw [ExceptT.run_bind, StateT.run_bind, run_get, pure_bind]
  dsimp only
  rw [written]
  rfl

theorem run_write_of_error {path : Files.Path} {content : List UInt8} {problem : Files.Problem}
    (refused : disk.write files path content = .error problem) (acts : List Act) :
    (Session.write path content).run.run (⟨files, acts⟩ : World disk) =
      pure (.ok (.error (.file problem path)), ⟨files, acts⟩) := by
  unfold Session.write
  rw [ExceptT.run_bind, StateT.run_bind, run_get, pure_bind]
  dsimp only
  rw [refused]
  rfl

theorem yields_bind_ok {session : Session disk α} {value : α} {next : α → Session disk β}
    {outcome : Except Halt β} (first : Yields files session (.ok value))
    (rest : Yields files (next value) outcome) : Yields files (session >>= next) outcome := by
  intro acts
  obtain ⟨before, firstRan⟩ := first acts
  obtain ⟨after, restRan⟩ := rest (acts ++ before.map .remark)
  refine ⟨before ++ after, ?_⟩
  rw [ExceptT.run_bind, StateT.run_bind, firstRan, lastWords, List.append_nil]
  rw [List.map_append, List.append_assoc, ← List.append_assoc acts]
  exact restRan

theorem yields_bind_error {session : Session disk α} {halt : Halt} {next : α → Session disk β}
    (first : Yields files session (.error halt)) :
    Yields files (session >>= next) (.error halt) := by
  intro acts
  obtain ⟨remarks, ran⟩ := first acts
  refine ⟨remarks, ?_⟩
  rw [ExceptT.run_bind, StateT.run_bind, ran]
  rfl

theorem yields_bind {session : Session disk α} {outcome : Except Halt α}
    {next : α → Session disk β} {continuation : α → Except Halt β}
    (first : Yields files session outcome)
    (rest : ∀ value, Yields files (next value) (continuation value)) :
    Yields files (session >>= next) (outcome >>= continuation) := by
  cases outcome with
  | ok value => exact yields_bind_ok first (rest value)
  | error halt => exact yields_bind_error first

theorem yields_note_bind {verbosity : Nat} {remarks : List Remark} {next : Unit → Session disk α}
    {outcome : Except Halt α} (rest : Yields files (next ()) outcome) :
    Yields files (note verbosity remarks >>= next) outcome :=
  yields_bind_ok (yields_note verbosity remarks) rest

theorem yields_files_bind {next : disk.State → Session disk α} {outcome : Except Halt α}
    (rest : Yields files (next files) outcome) :
    Yields files (Session.files >>= next) outcome :=
  yields_bind_ok yields_files rest

/-- A session that keeps its value and makes further remarks comes to the same. -/
theorem yields_keeping {session : Session disk α} {outcome : Except Halt α}
    {next : α → Session disk α} (first : Yields files session outcome)
    (rest : ∀ value, Yields files (next value) (.ok value)) :
    Yields files (session >>= next) outcome := by
  have all := yields_bind first rest
  cases outcome <;> exact all

theorem yields_mapM {operation : α → Session disk β} {outcome : α → Except Halt β}
    (each : ∀ element, Yields files (operation element) (outcome element)) (elements : List α) :
    Yields files (elements.mapM operation) (elements.mapM outcome) := by
  induction elements with
  | nil =>
      rw [List.mapM_nil, List.mapM_nil]
      exact yields_pure []
  | cons element elements induction =>
      rw [List.mapM_cons, List.mapM_cons]
      apply yields_bind (each element)
      intro result
      exact yields_bind induction fun results => yields_pure (result :: results)

end Session

/-! ### Requests -/

namespace Request

open Session

variable {request : Request} {host : Host} {files : host.disk.State}

/-- The content of an input. -/
def input (host : Host) (files : host.disk.State) (path : Files.Path) :
    Except Failure (List UInt8) :=
  (host.disk.read files path).mapError fun problem => .file problem path

/-- Read and analyse one input. -/
def analyzeInput (host : Host) (files : host.disk.State) (config : Value) (path : Files.Path) :
    Except Failure AnalyzedDocument := do
  let content ← input host files path
  Analysis.examine config (.bytes content)

theorem yields_loadConfig (request : Request) (host : Host) (files : host.disk.State) :
    Yields files (request.loadConfig host)
      ((Config.load host.settings host.disk files request.config).mapError
        (.on configWords?)) := by
  unfold Config.load
  rw [Outcome.mapError_bind]
  apply yields_files_bind
  apply yields_bind (yields_orEnd _ _)
  intro origin
  cases origin with
  | missing path => exact yields_bind (yields_note _ _) fun _ => yields_orEnd _ _
  | defaults => exact yields_orEnd _ _
  | file path => exact yields_orEnd _ _

theorem yields_examine (request : Request) (host : Host) (files : host.disk.State)
    (config : Value) (path : Files.Path) :
    Yields files (request.examine host config path)
      ((analyzeInput host files config path).mapError (.on inputWords?)) := by
  unfold analyzeInput Analysis.examine
  rw [Outcome.mapError_bind]
  apply yields_note_bind
  apply yields_files_bind
  apply yields_bind (yields_orEnd _ _)
  intro content
  rw [Outcome.mapError_bind]
  apply yields_bind (yields_orEnd _ _)
  intro document
  apply yields_note_bind
  apply yields_keeping (yields_orEnd _ _)
  intro analyzed
  exact yields_note_bind (yields_pure analyzed)

/-- What analysing the inputs of a request comes to. -/
def analysis (request : Request) (host : Host) (files : host.disk.State) (config : Value) :
    Except Halt Analysis := do
  let documents ← request.inputs.mapM fun path =>
    (analyzeInput host files config path).mapError (.on inputWords?)
  (Analysis.ofDocuments documents request.task.grouping config).mapError (.on inputWords?)

theorem yields_analyze (request : Request) (host : Host) (files : host.disk.State)
    (config : Value) :
    Yields files (request.analyze host config) (request.analysis host files config) := by
  apply yields_bind (yields_mapM (request.yields_examine host files config) request.inputs)
  intro documents
  apply yields_note_bind
  apply yields_keeping (yields_orEnd _ _)
  intro analysis
  exact yields_note_bind (yields_pure analysis)

/-- What a request comes to before its text is delivered. -/
def composed (request : Request) (host : Host) (files : host.disk.State) :
    Except Halt String := do
  let config ← (Config.load host.settings host.disk files request.config).mapError
    (.on configWords?)
  let analysis ← request.analysis host files config
  (request.text host.printer analysis config).mapError (.on fun _ => none)

theorem yields_compose (request : Request) (host : Host) (files : host.disk.State) :
    Yields files (request.compose host) (request.composed host files) := by
  apply yields_bind (request.yields_loadConfig host files)
  intro config
  apply yields_bind (request.yields_analyze host files config)
  intro analysis
  exact yields_orEnd _ _

theorem run_of_composed_error {halt : Halt}
    (failed : request.composed host files = .error halt) :
    ∃ remarks, request.run host files = halt.outcome files remarks := by
  have yields := request.yields_compose host files
  rw [failed] at yields
  obtain ⟨remarks, ran⟩ := @yields_bind_error _ _ _ _ _ _ (request.deliver host) yields []
  refine ⟨remarks, ?_⟩
  unfold run session
  rw [ran]
  rfl

/-! ### Delivered texts -/

/-- What a run leaves that has composed a text. -/
inductive Delivers (request : Request) (host : Host) (files : host.disk.State) (text : String) :
    Outcome host.disk → Prop
  | printed (remarks : List Remark) : request.output = none →
      Delivers request host files text ⟨.exit 0, files, remarks.map .remark ++ [.print text]⟩
  | written {path : Files.Path} {after : host.disk.State} (remarks later : List Remark) :
      request.output = some path →
      host.disk.write files path (Text.Utf8.encode text) = .ok after →
      Delivers request host files text ⟨.exit 0, after, remarks.map .remark ++
        .write path (Text.Utf8.encode text) :: later.map .remark⟩
  | refused {path : Files.Path} {problem : Files.Problem} (remarks : List Remark) :
      request.output = some path →
      host.disk.write files path (Text.Utf8.encode text) = .error problem →
      Delivers request host files text
        ((Halt.on outputWords? (.file problem path)).outcome files remarks)

section

variable {text : String} {path : Files.Path}

/-- A file is written, and then at most remarks are made. -/
theorem run_deliver_of_written (output : request.output = some path) {after : host.disk.State}
    (written : host.disk.write files path (Text.Utf8.encode text) = .ok after) (acts : List Act) :
    ∃ later : List Remark, (request.deliver host text).run.run ⟨files, acts⟩ =
      (.ok (), ⟨after, acts ++ .write path (Text.Utf8.encode text) :: later.map .remark⟩) := by
  have said : Yields after (do
      Session.orEnd outputWords? (.ok ())
      Session.note request.verbosity [.wrote request.task.name path]) (.ok ()) :=
    yields_bind_ok (yields_orEnd _ _) (yields_note _ _)
  obtain ⟨later, noted⟩ := said (acts ++ [.write path (Text.Utf8.encode text)])
  rw [lastWords, List.append_nil, List.append_assoc, List.singleton_append] at noted
  refine ⟨later, ?_⟩
  unfold deliver
  rw [output]
  dsimp only
  rw [ExceptT.run_bind, StateT.run_bind, run_write_of_ok written, pure_bind]
  exact noted

/-- A file that cannot be written stops the run. -/
theorem run_deliver_of_refused (output : request.output = some path) {problem : Files.Problem}
    (refused : host.disk.write files path (Text.Utf8.encode text) = .error problem)
    (acts : List Act) :
    let halt := Halt.on outputWords? (.file problem path)
    ∃ later : List Remark, (request.deliver host text).run.run ⟨files, acts⟩ =
      (.error halt.ending, ⟨files, acts ++ (later.map .remark ++ halt.lastWords)⟩) := by
  have said : Yields files (do
      Session.orEnd outputWords? (.error (.file problem path))
      Session.note request.verbosity [.wrote request.task.name path])
      (.error (.on outputWords? (.file problem path))) :=
    yields_bind_error (yields_orEnd _ _)
  obtain ⟨later, ended⟩ := said acts
  refine ⟨later, ?_⟩
  unfold deliver
  rw [output]
  dsimp only
  rw [ExceptT.run_bind, StateT.run_bind, run_write_of_error refused, pure_bind]
  exact ended

theorem delivers_of_composed (composed : request.composed host files = .ok text) :
    Delivers request host files text (request.run host files) := by
  have yields := request.yields_compose host files
  rw [composed] at yields
  obtain ⟨remarks, ran⟩ := yields []
  rw [lastWords, List.append_nil, List.nil_append] at ran
  have continued : (request.session host).run.run { files } =
      (request.deliver host text).run.run ⟨files, remarks.map .remark⟩ := by
    unfold session
    rw [ExceptT.run_bind, StateT.run_bind, ran]
    rfl
  unfold run
  rw [continued]
  cases output : request.output with
  | none =>
      unfold deliver
      rw [output]
      exact .printed remarks output
  | some path =>
      cases written : host.disk.write files path (Text.Utf8.encode text) with
      | ok after =>
          obtain ⟨later, same⟩ := run_deliver_of_written output written (remarks.map .remark)
          rw [same]
          exact .written remarks later output written
      | error problem =>
          obtain ⟨later, same⟩ := run_deliver_of_refused output written (remarks.map .remark)
          rw [← List.append_assoc, ← List.map_append] at same
          rw [same]
          exact .refused (remarks ++ later) output written

end

end Request

/-! ### Composed texts -/

/-- The text that a task makes of sources, with a configuration. -/
inductive Task.Renders (printer : Printer) (config : Value) (sources : List Index.Source) :
    Task → String → Prop
  | report {presentation : Presentation} {grouping : Grouping} {analysis : Analysis}
      {text : String} : Analysis.run sources grouping config = .ok analysis →
      Report.emit printer presentation grouping config analysis.rows analysis.warnings
        analysis.deprecated = .ok text →
      Renders printer config sources (.report presentation grouping) text
  | listing {presentation : Presentation} {analysis : Analysis} {listings : List Listing}
      {text : String} : Analysis.run sources .category config = .ok analysis →
      analysis.listings config = .ok listings →
      Listing.emit printer presentation config listings = .ok text →
      Renders printer config sources (.listing presentation) text

namespace Request

variable {request : Request} {host : Host} {files : host.disk.State}

theorem renders_iff {printer : Printer} {config : Value} {sources : List Index.Source}
    {text : String} :
    request.task.Renders printer config sources text ↔
      ∃ analysis, Analysis.run sources request.task.grouping config = .ok analysis ∧
        request.text printer analysis config = .ok text := by
  unfold Request.text
  cases request.task with
  | report presentation grouping =>
      constructor
      · intro rendered
        cases rendered with
        | report analysisOk emitted =>
            refine ⟨_, analysisOk, ?_⟩
            rw [← Analysis.grouping_of_run analysisOk] at emitted
            exact emitted
      · rintro ⟨analysis, analysisOk, emitted⟩
        refine .report analysisOk ?_
        unfold Analysis.report at emitted
        rw [Analysis.grouping_of_run analysisOk] at emitted
        exact emitted
  | listing presentation =>
      constructor
      · intro rendered
        cases rendered with
        | listing analysisOk listingsOk emitted =>
            exact ⟨_, analysisOk, Outcome.bind_eq_ok_iff.mpr ⟨_, listingsOk, emitted⟩⟩
      · rintro ⟨analysis, analysisOk, textOk⟩
        obtain ⟨listings, listingsOk, emitted⟩ := Outcome.bind_eq_ok_iff.mp textOk
        exact .listing analysisOk listingsOk emitted

/-- What is done for a text that is composed. -/
structure Composes (request : Request) (host : Host) (files : host.disk.State) (config : Value)
    (contents : List (List UInt8)) (text : String) : Prop where
  configOk : Config.load host.settings host.disk files request.config = .ok config
  inputsOk : List.Forall₂ (fun path content => host.disk.read files path = .ok content)
    request.inputs contents
  rendered : request.task.Renders host.printer config (contents.map .bytes) text

theorem exists_contents {config : Value} {paths : List Files.Path}
    {documents : List AnalyzedDocument}
    (each : List.Forall₂ (fun path analyzed => analyzeInput host files config path = .ok analyzed)
      paths documents) :
    ∃ contents,
      List.Forall₂ (fun path content => host.disk.read files path = .ok content) paths contents ∧
      List.Forall₂ (fun source analyzed => Analysis.examine config source = .ok analyzed)
        (contents.map .bytes) documents := by
  induction each with
  | nil => exact ⟨[], .nil, .nil⟩
  | cons first _ induction =>
      obtain ⟨contents, readOk, examined⟩ := induction
      obtain ⟨content, contentOk, firstOk⟩ := Outcome.bind_eq_ok_iff.mp first
      exact ⟨content :: contents, .cons (Outcome.mapError_eq_ok_iff.mp contentOk) readOk,
        .cons firstOk examined⟩

theorem analyzeInputs_of_contents {config : Value} {paths : List Files.Path}
    {contents : List (List UInt8)} {documents : List AnalyzedDocument}
    (readOk : List.Forall₂ (fun path content => host.disk.read files path = .ok content)
      paths contents)
    (examined : List.Forall₂ (fun source analyzed => Analysis.examine config source = .ok analyzed)
      (contents.map .bytes) documents) :
    List.Forall₂ (fun path analyzed => analyzeInput host files config path = .ok analyzed)
      paths documents := by
  induction readOk generalizing documents with
  | nil =>
      cases examined
      exact .nil
  | cons first _ induction =>
      cases examined with
      | cons firstOk rest =>
          refine .cons ?_ (induction rest)
          exact Outcome.bind_eq_ok_iff.mpr ⟨_, Outcome.mapError_eq_ok_iff.mpr first, firstOk⟩

/-- A text is composed exactly from the configuration, the contents of all inputs and the
analysis of these. -/
theorem composed_eq_ok_iff {text : String} :
    request.composed host files = .ok text ↔
      ∃ config contents, Composes request host files config contents text := by
  constructor
  · intro composed
    obtain ⟨config, configOk, rest⟩ := Outcome.bind_eq_ok_iff.mp composed
    obtain ⟨analysis, analysisOk, textOk⟩ := Outcome.bind_eq_ok_iff.mp rest
    obtain ⟨documents, documentsOk, analysisOk⟩ := Outcome.bind_eq_ok_iff.mp analysisOk
    rw [Outcome.mapError_eq_ok_iff] at configOk textOk analysisOk
    obtain ⟨contents, readOk, examined⟩ := exists_contents
      ((Outcome.mapM_eq_ok_iff.mp documentsOk).imp fun _ _ => Outcome.mapError_eq_ok_iff.mp)
    refine ⟨config, contents, configOk, readOk, renders_iff.mpr ⟨analysis, ?_, textOk⟩⟩
    exact Outcome.bind_eq_ok_iff.mpr ⟨documents, Outcome.mapM_eq_ok_iff.mpr examined, analysisOk⟩
  · rintro ⟨config, contents, configOk, readOk, rendered⟩
    obtain ⟨analysis, analysisOk, textOk⟩ := renders_iff.mp rendered
    obtain ⟨documents, documentsOk, analysisOk⟩ := Outcome.bind_eq_ok_iff.mp analysisOk
    have inputs := analyzeInputs_of_contents readOk (Outcome.mapM_eq_ok_iff.mp documentsOk)
    refine Outcome.bind_eq_ok_iff.mpr ⟨config, Outcome.mapError_eq_ok_iff.mpr configOk, ?_⟩
    refine Outcome.bind_eq_ok_iff.mpr ⟨analysis, ?_, Outcome.mapError_eq_ok_iff.mpr textOk⟩
    refine Outcome.bind_eq_ok_iff.mpr ⟨documents, ?_, Outcome.mapError_eq_ok_iff.mpr analysisOk⟩
    exact Outcome.mapM_eq_ok_iff.mpr (inputs.imp fun _ _ => Outcome.mapError_eq_ok_iff.mpr)

/-- A run that exits with zero has composed its text and delivers it. -/
theorem exists_composes_of_exit (exit : (request.run host files).ending = .exit 0) :
    ∃ config contents text, Composes request host files config contents text ∧
      Delivers request host files text (request.run host files) := by
  cases composed : request.composed host files with
  | error halt =>
      obtain ⟨remarks, same⟩ := run_of_composed_error composed
      rw [same] at exit
      exact absurd exit halt.ending_ne_exit
  | ok text =>
      obtain ⟨config, contents, composes⟩ := composed_eq_ok_iff.mp composed
      exact ⟨config, contents, text, composes, delivers_of_composed composed⟩

/-- The first input that cannot be analysed decides how a run ends. -/
theorem run_of_input {config : Value} {before after : List Files.Path} {path : Files.Path}
    {cause : Failure}
    (configOk : Config.load host.settings host.disk files request.config = .ok config)
    (split : request.inputs = before ++ path :: after)
    (earlier : ∀ other ∈ before, ∃ analyzed,
      analyzeInput host files config other = .ok analyzed)
    (failed : analyzeInput host files config path = .error cause) :
    ∃ remarks, request.run host files = (Halt.on inputWords? cause).outcome files remarks := by
  apply run_of_composed_error
  have inputs : request.analysis host files config = .error (.on inputWords? cause) := by
    apply Outcome.bind_eq_error_iff.mpr
    rw [split]
    refine .inl (Outcome.mapM_of_first (fun other member => ?_)
      (Outcome.mapError_eq_error_iff.mpr ⟨cause, failed, rfl⟩))
    obtain ⟨analyzed, analyzedOk⟩ := earlier other member
    exact ⟨analyzed, Outcome.mapError_eq_ok_iff.mpr analyzedOk⟩
  apply Outcome.bind_eq_error_iff.mpr
  refine .inr ⟨config, Outcome.mapError_eq_ok_iff.mpr configOk, ?_⟩
  exact Outcome.bind_eq_error_iff.mpr (.inl inputs)

end Request

end CommandLine

end ApiCensus
