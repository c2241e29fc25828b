import ApiCensus.CommandLine.Log
import ApiCensus.CommandLine.Request
import ApiCensus.Config.Load

/-!
# Carrying out a request

A run reads its configuration and its inputs, makes a text, and then prints it or
writes it to a file.  What it does that can be seen from outside is recorded in its
order: the remarks that the user asks to see, complaints, printed texts and written
files.  A run ends with an exit code, or with a failure that the command line has no
words for and that leaves it.
-/

namespace ApiCensus.CommandLine

/-- What the command line works with: a disk, a reader of settings, and what reports
are written with. -/
structure Host where
  disk : Files.Disk
  settings : Config.Reader
  printer : Printer

/-- Something that a run does and that can be seen from outside. -/
inductive Act
  | remark (made : Remark)
  /-- A line for the user besides the output. -/
  | complain (line : String)
  | print (text : String)
  | write (path : Files.Path) (content : List UInt8)

namespace Act

/-- The text that is printed. -/
def printed? : Act → Option String
  | .print text => some text
  | _ => none

/-- The file that is written, with its content. -/
def written? : Act → Option (Files.Path × List UInt8)
  | .write path content => some (path, content)
  | _ => none

/-- What is shown besides the output. -/
def message? : Act → Option String
  | .remark made => some made.line
  | .complain line => some line
  | _ => none

end Act

/-- The files as they are, and what a run has done so far. -/
structure World (disk : Files.Disk) where
  files : disk.State
  acts : List Act := []

/-- How a run ends. -/
inductive Ending
  | help
  | misuse (complaint : String)
  | exit (code : Nat)
  /-- A failure leaves the command line. -/
  | escape (cause : Failure)

/-- Carrying out a request: the world changes on the way, and the end can come
early. -/
abbrev Session (disk : Files.Disk) := ExceptT Ending (StateM (World disk))

namespace Session

variable {disk : Files.Disk} {α : Type}

/-- Do things one after the other. -/
def perform (acts : List Act) : Session disk Unit :=
  modify fun world => { world with acts := world.acts ++ acts }

/-- Make the remarks that are to be shown. -/
def note (verbosity : Nat) (remarks : List Remark) : Session disk Unit :=
  perform ((remarks.filter (·.severity.isShown verbosity)).map .remark)

/-- The files as they are. -/
def files : Session disk disk.State := do
  return (← get).files

/-- Go on with a result. A failure that there are words for is told to the user and
ends the run; any other one leaves the command line. -/
def orEnd (words? : Failure → Option String) (result : Except Failure α) : Session disk α :=
  match result with
  | .ok value => pure value
  | .error cause =>
      match words? cause with
      | some line => do
          perform [.complain line]
          throw (.exit 1)
      | none => throw (.escape cause)

/-- Write a file. -/
def write (path : Files.Path) (content : List UInt8) : Session disk (Except Failure Unit) := do
  let world ← get
  match disk.write world.files path content with
  | .error problem => return .error (.file problem path)
  | .ok files =>
      set ({ files, acts := world.acts ++ [.write path content] } : World disk)
      return .ok ()

end Session

/-- The words for a failure to load the configuration. -/
def configWords? : Failure → Option String
  | .file .nullCharacter _ => some s!"error [config]: {Files.Problem.nullCharacter.words}\n"
  | .file problem path => some s!"error [config]: {problem.message path}\n"
  | .invalid cause => some s!"error [config]: {cause.message}\n"
  | .undecodable cause => some s!"error [config]: {cause.message}\n"
  | .yaml => some "error [config]: not well-formed YAML\n"
  | _ => none

/-- The words for a failure to read and analyse the inputs. -/
def inputWords? : Failure → Option String
  | .load cause => some s!"error [load]: {cause.message}\n"
  | .file .nullCharacter _ => none
  | .file problem path => some s!"error [load]: cannot read input: {problem.message path}\n"
  | _ => none

/-- The words for a failure to write the output. -/
def outputWords? : Failure → Option String
  | .file .nullCharacter _ => none
  | .file problem path => some s!"error [emit]: cannot write output: {problem.message path}\n"
  | _ => none

namespace Request

/-- Load the configuration. -/
def loadConfig (request : Request) (host : Host) : Session host.disk Value := do
  let files ← Session.files
  let origin ← Session.orEnd configWords? (Config.origin host.disk files request.config)
  if let .missing path := origin then
    Session.note request.verbosity [.configMissing path]
  Session.orEnd configWords? (Config.ofOrigin host.settings host.disk files origin)

/-- Read and analyse one input. -/
def examine (request : Request) (host : Host) (config : Value) (path : Files.Path) :
    Session host.disk AnalyzedDocument := do
  Session.note request.verbosity [.loading path]
  let files ← Session.files
  let content ← Session.orEnd inputWords?
    ((host.disk.read files path).mapError fun problem => .file problem path)
  let document ← Session.orEnd inputWords? (Index.load (.bytes content))
  Session.note request.verbosity
    [.loaded document.items.length document.crateName document.formatVersion]
  let analyzed ← Session.orEnd inputWords? (document.analyze config)
  Session.note request.verbosity (Remark.onDocument analyzed)
  return analyzed

/-- Analyse the inputs. -/
def analyze (request : Request) (host : Host) (config : Value) : Session host.disk Analysis := do
  let documents ← request.inputs.mapM (request.examine host config)
  Session.note request.verbosity (documents.map Remark.summing)
  let analysis ← Session.orEnd inputWords?
    (Analysis.ofDocuments documents request.task.grouping config)
  Session.note request.verbosity (Remark.onAnalysis analysis)
  return analysis

/-- The text that is asked for. -/
def text (request : Request) (printer : Printer) (analysis : Analysis) (config : Value) :
    Except Failure String := do
  match request.task with
  | .report presentation _ => analysis.report printer presentation config
  | .listing presentation =>
      let listings ← analysis.listings config
      Listing.emit printer presentation config listings

/-- The text that is asked for, from reading the configuration on. -/
def compose (request : Request) (host : Host) : Session host.disk String := do
  let config ← request.loadConfig host
  let analysis ← request.analyze host config
  Session.orEnd (fun _ => none) (request.text host.printer analysis config)

/-- Print a text or write it to the file that is asked for. -/
def deliver (request : Request) (host : Host) (text : String) : Session host.disk Unit := do
  match request.output with
  | none => Session.perform [.print text]
  | some path =>
      let written ← Session.write path (Text.Utf8.encode text)
      Session.orEnd outputWords? written
      Session.note request.verbosity [.wrote request.task.name path]

/-- Carry out a request. -/
def session (request : Request) (host : Host) : Session host.disk Unit := do
  let text ← request.compose host
  request.deliver host text

end Request

/-- How a run has ended, and the world that it leaves. -/
structure Outcome (disk : Files.Disk) where
  ending : Ending
  world : World disk

namespace Outcome

variable {disk : Files.Disk}

/-- What has been printed. -/
def output (outcome : Outcome disk) : String :=
  String.join (outcome.world.acts.filterMap Act.printed?)

/-- What has been shown besides the output. -/
def messages (outcome : Outcome disk) : String :=
  String.join (outcome.world.acts.filterMap Act.message?)

end Outcome

/-- Carry out a request. -/
def Request.run (request : Request) (host : Host) (files : host.disk.State) :
    Outcome host.disk :=
  match (request.session host).run.run { files } with
  | (.ok (), world) => ⟨.exit 0, world⟩
  | (.error ending, world) => ⟨ending, world⟩

/-- Carry out a command line. -/
def run (host : Host) (files : host.disk.State) (arguments : List String) : Outcome host.disk :=
  match Request.parse arguments with
  | .ok request => request.run host files
  | .error .help => ⟨.help, { files }⟩
  | .error (.misuse complaint) => ⟨.misuse complaint, { files }⟩

end ApiCensus.CommandLine
