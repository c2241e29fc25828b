import ApiCensus.Files.Path
import ApiCensus.Text.Quoted

/-!
# A tree of files

The directories and files of a system, as a value: what a path leads to, the
content of a file, and the tree after a file has been written.  A path starts at
the root or at the working directory and may go up again; above the root there is
only the root.
-/

namespace ApiCensus.Files

/-- Why a path cannot be used. -/
inductive Problem
  | notFound
  | notADirectory
  | isADirectory
  | nameTooLong
  | notPermitted
  /-- The path holds a null character. -/
  | nullCharacter
  /-- Any other refusal, in the words of the system. -/
  | other (code : Nat) (words : String)
deriving DecidableEq, Repr

namespace Problem

/-- The number of a problem. -/
def code : Problem → Nat
  | .notFound => 2
  | .notPermitted => 13
  | .notADirectory => 20
  | .isADirectory => 21
  | .nullCharacter => 22
  | .nameTooLong => 36
  | .other code _ => code

/-- The words for a problem. -/
def words : Problem → String
  | .notFound => "No such file or directory"
  | .notPermitted => "Permission denied"
  | .notADirectory => "Not a directory"
  | .isADirectory => "Is a directory"
  | .nullCharacter => "embedded null byte"
  | .nameTooLong => "File name too long"
  | .other _ words => words

/-- The wording of a problem with a path. -/
def message (problem : Problem) (path : Path) : String :=
  s!"[Errno {problem.code}] {problem.words}: {Text.quoted path.text}"

end Problem

/-- The place of a file or a directory: the names that lead to it from the root. -/
abbrev Location := List String

/-- Directories and files with their content, and the directory that a program
works in. -/
structure Tree where
  directories : List Location := []
  files : List (Location × List UInt8) := []
  working : Location := []

namespace Tree

/-- The content of a file. -/
def file? (tree : Tree) (location : Location) : Option (List UInt8) :=
  tree.files.lookup location

/-- Whether a place is a directory. The root and the working directory are, and so
is all that a file or a directory lies in. -/
def isDirectory (tree : Tree) (location : Location) : Bool :=
  location.isPrefixOf tree.working || tree.directories.any (location.isPrefixOf ·) ||
    tree.files.any fun (below, _) => location.isPrefixOf below && below != location

/-- A name of a path must not hold a null character and is at most 255 bytes long. -/
def checkName (name : String) : Except Problem Unit :=
  if name.toList.contains '\x00' then .error .nullCharacter
  else if name.utf8ByteSize > 255 then .error .nameTooLong
  else .ok ()

/-- Follow names from a directory. All but the last lead through directories. -/
def walk (tree : Tree) : (start : Location) → (names : List String) → Except Problem Location
  | start, [] => .ok start
  | start, name :: rest =>
      if tree.isDirectory start then
        if name = ".." then tree.walk start.dropLast rest
        else
          match checkName name with
          | .error problem => .error problem
          | .ok _ => tree.walk (start ++ [name]) rest
      else if (tree.file? start).isSome then .error .notADirectory
      else .error .notFound

/-- The place that a path leads to, whether or not there is something. -/
def locate (tree : Tree) (path : Path) : Except Problem Location :=
  if path.names.any fun name => name.toList.contains '\x00' then .error .nullCharacter
  else
    match path.origin with
    | .here => tree.walk tree.working path.names
    | _ => tree.walk [] path.names

/-- Whether a path leads to something. A path that leads nowhere is no problem. -/
def exists? (tree : Tree) (path : Path) : Except Problem Bool :=
  match tree.locate path with
  | .ok location => .ok (tree.isDirectory location || (tree.file? location).isSome)
  | .error .nameTooLong => .error .nameTooLong
  | .error _ => .ok false

/-- The content of the file that a path leads to. -/
def read (tree : Tree) (path : Path) : Except Problem (List UInt8) :=
  match tree.locate path with
  | .error problem => .error problem
  | .ok location =>
      if tree.isDirectory location then .error .isADirectory
      else
        match tree.file? location with
        | some content => .ok content
        | none => .error .notFound

/-- The files with one of them set to a content: in its place, or last if it is
new. -/
def setFile (location : Location) (content : List UInt8) :
    List (Location × List UInt8) → List (Location × List UInt8)
  | [] => [(location, content)]
  | (present, old) :: rest =>
      if present = location then (present, content) :: rest
      else (present, old) :: setFile location content rest

/-- The tree after writing a file. -/
def write (tree : Tree) (path : Path) (content : List UInt8) : Except Problem Tree :=
  match tree.locate path with
  | .error problem => .error problem
  | .ok location =>
      if tree.isDirectory location then .error .isADirectory
      else .ok { tree with files := setFile location content tree.files }

/-- After writing, a file has its new content and every other file its old one. -/
theorem lookup_setFile (location other : Location) (content : List UInt8)
    (files : List (Location × List UInt8)) :
    (setFile location content files).lookup other =
      if other = location then some content else files.lookup other := by
  induction files with
  | nil =>
      by_cases equal : other = location
      · simp [setFile, equal]
      · have differs : (other == location) = false := by simpa using equal
        simp [setFile, List.lookup_cons, differs, equal]
  | cons entry rest ih =>
      obtain ⟨present, old⟩ := entry
      by_cases here : present = location
      · by_cases equal : other = location
        · simp [setFile, here, equal]
        · have differs : (other == location) = false := by simpa using equal
          simp [setFile, List.lookup_cons, here, differs, equal]
      · by_cases equal : other = present
        · simp [setFile, here, equal]
        · have differs : (other == present) = false := by simpa using equal
          simp [setFile, List.lookup_cons, here, differs, ih]

end Tree

end ApiCensus.Files
