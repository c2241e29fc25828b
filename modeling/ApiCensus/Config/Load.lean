import ApiCensus.Config.Merge
import ApiCensus.Failure
import ApiCensus.Files.Disk
import ApiCensus.Text.LineEnd

/-!
# Loading a configuration

The configuration of a run is the default one with the user's file laid over it.
A file that does not exist is only remarked on.  How the text of a file is read is
told from outside.
-/

namespace ApiCensus.Config

/-- A reader of settings: the value that a text stands for. -/
abbrev Reader := String → Except Failure Value

/-- The configuration that the content of a file stands for. An empty file
changes nothing. -/
def ofBytes (reader : Reader) (path : Files.Path) (content : List UInt8) :
    Except Failure Value := do
  let text ← (Text.Utf8.decode content).mapError .undecodable
  let value ← reader (String.ofList (Text.unifyLineEnds text.toList))
  let user := value.orElse (.record [])
  unless user.isRecord do throw (.invalid (.configNotARecord path.text))
  merge defaults user

/-- Where the configuration of a run comes from. -/
inductive Origin
  | defaults
  | missing (path : Files.Path)
  | file (path : Files.Path)
deriving DecidableEq

/-- Where the configuration comes from for a requested file name; without one, or
with an empty one, the default configuration holds. -/
def origin (disk : Files.Disk) (files : disk.State) (requested : Option String) :
    Except Failure Origin :=
  match requested with
  | none => .ok .defaults
  | some "" => .ok .defaults
  | some name =>
      let path := Files.Path.ofText name
      match disk.exists? files path with
      | .ok true => .ok (.file path)
      | .ok false => .ok (.missing path)
      | .error problem => .error (.file problem path)

/-- The configuration of an origin. -/
def ofOrigin (reader : Reader) (disk : Files.Disk) (files : disk.State) :
    Origin → Except Failure Value
  | .file path => do
      let content ← (disk.read files path).mapError fun problem => .file problem path
      ofBytes reader path content
  | _ => .ok defaults

/-- The configuration for a requested file name. -/
def load (reader : Reader) (disk : Files.Disk) (files : disk.State)
    (requested : Option String) : Except Failure Value := do
  let origin ← origin disk files requested
  ofOrigin reader disk files origin

end ApiCensus.Config
