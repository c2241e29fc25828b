import ApiCensus.Failure
import ApiCensus.Text.Search

/-!
# Coverage of modules

A coverage report counts, for each source file, the statements and branches that
tests have reached.  Of these counts the shares of the package's own modules are
taken, in percent.
-/

namespace ApiCensus.Coverage

/-- The shares of the statements and branches of a module that are covered, in
percent; none where there is nothing to measure. -/
structure ModuleCoverage where
  path : String
  lines : Option Binary64
  branches : Option Binary64
deriving DecidableEq, Repr

/-- What the path of a module of the package contains. -/
def packageMark : String := "apistats/"

/-- Files of the package that are not measured. -/
def skippedFiles : List String :=
  ["__main__.py"]

/-- The number of a count as an integer. -/
def asInteger? : Value → Option Int
  | .int number => some number
  | .bool truth => some (if truth then 1 else 0)
  | _ => none

/-- The number of a count as a double; an integer must not be too large for one. -/
def asDouble (value : Value) : Except Failure Binary64 :=
  match value, asInteger? value with
  | .float number, _ => .ok number
  | _, some number =>
      match Binary64.ofInt number with
      | .infinite _ => .error .overflow
      | double => .ok double
  | _, none => .error (.shape .unsuited)

/-- The quotient of two counts. That of integers is rounded once. -/
def quotient (covered total : Value) : Except Failure Binary64 :=
  match asInteger? covered, asInteger? total with
  | some num, some den =>
      match Binary64.nearest (decide (num < 0) != decide (den < 0)) num.natAbs den.natAbs with
      | .infinite _ => .error .overflow
      | double => .ok double
  | _, _ => do
      let covered ← asDouble covered
      let total ← asDouble total
      return covered.div total

/-- The share of a total in percent; none where there is nothing to measure. -/
def percent (covered total : Value) : Except Failure (Option Binary64) := do
  if covered.isNull || !total.isTruthy then return none
  let share ← quotient covered total
  return some (share.mul (Binary64.ofInt 100))

/-- The path with slashes only. -/
def slashed (path : String) : String :=
  path.map fun c => if c = '\\' then '/' else c

/-- The last name of a path. -/
def fileName (path : String) : String :=
  ((path.splitOn "/").getLast?).getD ""

/-- Whether a path is that of a measured module. -/
def isMeasured (path : String) : Bool :=
  Text.contains path packageMark && !skippedFiles.contains (fileName path)

/-- The coverage of a module. -/
def moduleCoverage (path : String) (info : Value) : Except Failure ModuleCoverage := do
  let info ← info.asRecord
  let summary ← ((info.get? "summary").getD (.record [])).asRecord
  let lines ← percent (summary.get "covered_lines") (summary.get "num_statements")
  let branches ← percent (summary.get "covered_branches") (summary.get "num_branches")
  return { path, lines, branches }

/-- The coverage of the modules of the package, in the order of the paths as they
are reported. -/
def modules (files : Value) : Except Failure (List ModuleCoverage) := do
  match files with
  | .record entries =>
      let named := entries.map fun (key, info) => (key.toText, info)
      let sorted := named.mergeSort fun left right => !decide (right.1 < left.1)
      let measured := (sorted.map fun (path, info) => (slashed path, info)).filter
        fun entry => isMeasured entry.1
      measured.mapM fun (path, info) => moduleCoverage path info
  | _ => throw (.shape .noParts)

end ApiCensus.Coverage
