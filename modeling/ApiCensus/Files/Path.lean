import ApiCensus.Text.Search

/-!
# File names

A path is a list of names below the working directory or below a root.  Empty
names and single dots are dropped when it is read; double dots are kept.
-/

namespace ApiCensus.Files

/-- Where the names of a path start. -/
inductive Origin
  | here
  | root
  /-- The root written with exactly two slashes, which keeps them. -/
  | doubleRoot
deriving DecidableEq, Repr

/-- A path. -/
structure Path where
  origin : Origin
  names : List String
deriving DecidableEq, Repr

namespace Path

/-- The origin of a path, by its leading slashes. -/
def originOf (chars : List Char) : Origin :=
  match (chars.takeWhile (· = '/')).length with
  | 0 => .here
  | 2 => .doubleRoot
  | _ => .root

/-- The path of a text. -/
def ofText (text : String) : Path where
  origin := originOf text.toList
  names := ((Text.splitAt '/' text.toList).map String.ofList).filter fun name =>
    name != "" && name != "."

/-- The text of a path; one without names is a dot. -/
def text (path : Path) : String :=
  let names := "/".intercalate path.names
  match path.origin with
  | .here => if path.names.isEmpty then "." else names
  | .root => "/" ++ names
  | .doubleRoot => "//" ++ names

end Path

end ApiCensus.Files
