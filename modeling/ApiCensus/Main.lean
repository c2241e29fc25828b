import ApiCensus.CommandLine.Run
import ApiCensus.Coverage.Gate
import ApiCensus.Outer.Services

/-!
# The programs

The command line of the census, and that of the coverage gate.  Both look at the
files that their arguments name, let the library decide, and carry out what it
decides.
-/

namespace ApiCensus.Program

/-- What the system says about a file. -/
def problemOf : IO.Error → Files.Problem
  | .noFileOrDirectory _ _ _ => .notFound
  | .permissionDenied _ _ _ => .notPermitted
  | .inappropriateType _ code _ => if code = 20 then .notADirectory else .isADirectory
  | error => .other 5 (toString error)

/-- The content of a file, or why it cannot be read. -/
def lookAt (path : Files.Path) : IO (Files.Path × Except Files.Problem (List UInt8)) := do
  try
    let content ← IO.FS.readBinFile path.text
    return (path, .ok content.data.toList)
  catch error => return (path, .error (problemOf error))

/-- The files that have been looked at, and why no file may be written, if so. -/
structure Snapshot where
  seen : List (Files.Path × Except Files.Problem (List UInt8))
  refusal : Option Files.Problem := none

namespace Snapshot

/-- What has been seen at a path. -/
def read (snapshot : Snapshot) (path : Files.Path) : Except Files.Problem (List UInt8) :=
  (snapshot.seen.lookup path).getD (.error .notFound)

/-- The snapshot after a file has been written. -/
def write (snapshot : Snapshot) (path : Files.Path) (content : List UInt8) :
    Except Files.Problem Snapshot :=
  match snapshot.refusal with
  | some problem => .error problem
  | none => .ok { snapshot with seen := (path, .ok content) :: snapshot.seen }

/-- Whether something has been seen at a path. -/
def exists? (snapshot : Snapshot) (path : Files.Path) : Except Files.Problem Bool :=
  match snapshot.read path with
  | .error .notFound | .error .notADirectory => .ok false
  | _ => .ok true

theorem read_of_write {snapshot after : Snapshot} {path : Files.Path} {content : List UInt8}
    (written : snapshot.write path content = .ok after) (other : Files.Path) :
    after.read other = if other = path then .ok content else snapshot.read other := by
  unfold write at written
  split at written
  · cases written
  · cases written
    by_cases same : other = path
    · simp [read, same]
    · simp [read, List.lookup_cons, beq_false_of_ne same, same]

/-- Snapshots as the states of a disk. -/
def disk : Files.Disk where
  State := Snapshot
  File := Files.Path
  content? snapshot path := (snapshot.read path).toOption
  locate _ path := .ok path
  exists? := exists?
  read := read
  write := write
  content_of_read {_ path _} readOk := ⟨path, rfl, by rw [readOk]; rfl⟩
  content_of_write {_ path _ _} written := by
    refine ⟨path, rfl, ?_, fun other different => ?_⟩
    · rw [read_of_write written, if_pos rfl]
      rfl
    · rw [read_of_write written, if_neg different]

end Snapshot

/-- What the programs work with. -/
def host : CommandLine.Host where
  disk := Snapshot.disk
  settings := Services.settings
  printer := Services.printer

/-- Write a file, or tell why that fails. -/
def writeTo (path : Files.Path) (content : List UInt8) : IO (Option Files.Problem) := do
  try
    IO.FS.writeBinFile path.text ⟨content.toArray⟩
    return none
  catch error => return some (problemOf error)

/-- Show an outcome. A failure that has no words for the user is shown as such. -/
def showOutcome (outcome : CommandLine.Outcome host.disk) : IO UInt32 := do
  IO.eprint outcome.messages
  IO.print outcome.output
  match outcome.ending with
  | .help =>
      IO.println "usage: apistats [-h] command [options] inputs"
      return 0
  | .misuse complaint =>
      IO.eprintln complaint
      return 2
  | .escape cause =>
      IO.eprintln (reprStr cause)
      return 1
  | .exit code => return UInt32.ofNat code

/-- The files that a command line may read. -/
def filesOf (arguments : List String) : List Files.Path :=
  match CommandLine.Request.parse arguments with
  | .ok request => request.inputs ++ (request.config.map Files.Path.ofText).toList
  | .error _ => []

/-- The command line of the census. If the report cannot be written, the run is
decided again with that in mind. -/
def census (arguments : List String) : IO UInt32 := do
  let seen ← (filesOf arguments).mapM lookAt
  let outcome := CommandLine.run host ({ seen } : Snapshot) arguments
  match outcome.world.acts.findSome? CommandLine.Act.written? with
  | some (path, content) =>
      match ← writeTo path content with
      | none => showOutcome outcome
      | some problem =>
          showOutcome
            (CommandLine.run host ({ seen, refusal := some problem } : Snapshot) arguments)
  | none => showOutcome outcome

/-- The command line of the coverage gate. -/
def coverageGate (arguments : List String) : IO UInt32 := do
  let named := match Coverage.GateRequest.parse arguments with
    | .ok request => [request.file]
    | .error _ => []
  let seen ← named.mapM lookAt
  let ending := Coverage.runGate Snapshot.disk ({ seen } : Snapshot) arguments
  IO.eprint ending.messages
  IO.print (ending.output Services.drawModules)
  match ending with
  | .help => IO.println "usage: coverage_gate.py [-h] [--file FILE] [--threshold THRESHOLD]"
  | .misuse complaint => IO.eprintln complaint
  | .failed cause => IO.eprintln (reprStr cause)
  | _ => pure ()
  return UInt32.ofNat ending.exitCode

end ApiCensus.Program

/-- Run the census. -/
def main (arguments : List String) : IO UInt32 :=
  ApiCensus.Program.census arguments
