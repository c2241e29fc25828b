import ApiCensus.Number.Floating
import ApiCensus.Text.Quoted

/-!
# Options and operands

A grammar tells which options a program knows and what else it takes.  Long
options may be abbreviated and take their value after an equals sign or as the
next argument; short ones may be joined to their value or to each other.  After
two dashes there are only operands.

Operands belong together: those after the first run are not recognized.
-/

namespace ApiCensus.CommandLine

/-- What the value of an option has to be. -/
inductive Check
  | anything
  | oneOf (choices : List String)
  | number

/-- The wording of a choice that there is not. -/
def invalidChoice (choices : List String) (text : String) : String :=
  let offered := ", ".intercalate (choices.map Text.quoted)
  s!"invalid choice: {Text.quoted text} (choose from {offered})"

/-- What is wrong with the value of an option. -/
def Check.complaint? (check : Check) (text : String) : Option String :=
  match check with
  | .anything => none
  | .oneOf choices => if choices.contains text then none else some (invalidChoice choices text)
  | .number =>
      if (Number.readFloat? text).isSome then none
      else some ("invalid float value: " ++ Text.quoted text)

/-- What an option does. -/
inductive Effect
  | help
  | flag
  | value (check : Check)

/-- An option with its names, the short ones first. -/
structure Switch where
  names : List String
  effect : Effect

namespace Switch

/-- The full name of an option. -/
def name (switch : Switch) : String :=
  (switch.names.getLast?).getD ""

/-- All names of an option, as complaints show them. -/
def title (switch : Switch) : String :=
  "/".intercalate switch.names

end Switch

/-- What a program takes besides options. -/
inductive Operands
  | nothing
  /-- One or more operands. -/
  | some (title : String)
  /-- A command, and all arguments that follow it. -/
  | command (title : String) (choices : List String)

/-- The arguments that a program takes. -/
structure Grammar where
  switches : List Switch
  operands : Operands

/-- Why arguments are not carried out. -/
inductive Stop
  | help
  | misuse (complaint : String)
deriving DecidableEq, Repr

/-- Options in the order in which they are given, each with its value; operands;
and what is not recognized. -/
structure Arguments where
  options : List (String × String) := []
  operands : List String := []
  extras : List String := []
deriving Repr

/-- The value that an option was given in the same argument. -/
structure Joined where
  /-- Whether an equals sign stands before it. -/
  divided : Bool
  text : List Char

/-- An argument taken for an option; an unknown one has no switch. -/
structure Candidate where
  switch : Option Switch
  name : String
  joined : Option Joined := none

/-- An argument by its role. -/
inductive Piece
  | operand (text : String)
  | divider
  | option (text : String) (candidate : Candidate)

/-- The argument itself. -/
def Piece.text : Piece → String
  | .operand text => text
  | .divider => "--"
  | .option text _ => text

/-- What stands before and after the first equals sign. -/
def splitEquals (chars : List Char) : List Char × Option (List Char) :=
  match chars.dropWhile (· != '=') with
  | [] => (chars, none)
  | _ :: value => (chars.takeWhile (· != '='), some value)

/-- Whether the text is a negative number, which is never taken for an option. -/
def isNegativeNumber (chars : List Char) : Bool :=
  let isDigit (c : Char) := (Text.decimalValue? c).isSome
  match chars with
  | '-' :: rest =>
      let whole := rest.takeWhile isDigit
      match rest.dropWhile isDigit with
      | [] => !whole.isEmpty
      | '.' :: fraction => !fraction.isEmpty && fraction.all isDigit
      | _ => false
  | _ => false

namespace Grammar

/-- The option of a name. -/
def find? (grammar : Grammar) (name : String) : Option Switch :=
  grammar.switches.find? (·.names.contains name)

/-- Every name with its option. -/
def allNames (grammar : Grammar) : List (String × Switch) :=
  grammar.switches.flatMap fun switch => switch.names.map fun name => (name, switch)

/-- What an argument that is no full name could stand for: a long option with an
abbreviated name, or a short one with its value. -/
def candidates (grammar : Grammar) (chars : List Char) : List Candidate :=
  match chars with
  | '-' :: '-' :: _ =>
      let (start, value) := splitEquals chars
      (grammar.allNames.filter fun entry => start.isPrefixOf entry.1.toList).map fun entry =>
        { switch := some entry.2, name := entry.1, joined := value.map fun text => ⟨true, text⟩ }
  | _ =>
      (grammar.allNames.filter fun entry => entry.1.toList == chars.take 2).map fun entry =>
        { switch := some entry.2, name := entry.1, joined := some ⟨false, chars.drop 2⟩ }

/-- The option that an argument stands for, if it is not an operand. -/
def candidate? (grammar : Grammar) (argument : String) : Except Stop (Option Candidate) :=
  match argument.toList with
  | '-' :: c :: rest =>
      let chars := '-' :: c :: rest
      match grammar.find? argument with
      | some switch => .ok (some { switch := some switch, name := argument })
      | none =>
          let (start, value) := splitEquals chars
          let name := String.ofList start
          match value, grammar.find? name with
          | some text, some switch =>
              .ok (some { switch := some switch, name, joined := some ⟨true, text⟩ })
          | _, _ =>
              match grammar.candidates chars with
              | [only] => .ok (some only)
              | [] =>
                  if isNegativeNumber chars || chars.contains ' ' then .ok none
                  else .ok (some { switch := none, name := argument })
              | several =>
                  let names := ", ".intercalate (several.map (·.name))
                  .error (.misuse s!"ambiguous option: {argument} could match {names}")
  | _ => .ok none

/-- The roles of arguments. -/
def pieces (grammar : Grammar) : List String → Except Stop (List Piece)
  | [] => .ok []
  | argument :: rest =>
      if argument = "--" then .ok (.divider :: rest.map .operand)
      else do
        let piece := match ← grammar.candidate? argument with
          | some candidate => .option argument candidate
          | none => .operand argument
        return piece :: (← grammar.pieces rest)

end Grammar

/-- The complaint about an option. -/
def complain (switch : Switch) (complaint : String) : Stop :=
  .misuse s!"argument {switch.title}: {complaint}"

/-- The options that one argument stands for. The last of them may need the next
argument as its value. -/
structure Cluster where
  taken : List (Switch × String) := []
  pending : Option Switch := none
  extras : List String := []

/-- Read a joined value: what follows a short option without value is a short
option again. -/
def cluster (grammar : Grammar) (long : Bool) (switch : Switch) (divided : Bool) :
    List Char → Except Stop Cluster
  | [] =>
      match switch.effect with
      | .value _ => .ok { taken := [(switch, "")] }
      | _ => .error (complain switch ("ignored explicit argument " ++ Text.quoted ""))
  | c :: rest =>
      let text := String.ofList (c :: rest)
      match switch.effect with
      | .value _ => .ok { taken := [(switch, text)] }
      | _ =>
          if long || divided || c = '-' then
            .error (complain switch ("ignored explicit argument " ++ Text.quoted text))
          else
            match grammar.find? (String.ofList ['-', c]) with
            | none => .ok { taken := [(switch, "")], extras := ["-" ++ text] }
            | some next => do
                let following ←
                  match rest with
                  | [] =>
                      match next.effect with
                      | .value _ => pure { pending := some next }
                      | _ => pure { taken := [(next, "")] }
                  | '=' :: more => cluster grammar false next true more
                  | more => cluster grammar false next false more
                return { following with taken := (switch, "") :: following.taken }

/-- Read an argument that stands for an option. -/
def Candidate.cluster (grammar : Grammar) (candidate : Candidate) (argument : String) :
    Except Stop Cluster :=
  match candidate.switch, candidate.joined with
  | none, _ => .ok { extras := [argument] }
  | some switch, none =>
      match switch.effect with
      | .value _ => .ok { pending := some switch }
      | _ => .ok { taken := [(switch, "")] }
  | some switch, some joined =>
      CommandLine.cluster grammar (candidate.name.toList.take 2 == ['-', '-']) switch
        joined.divided joined.text

/-- Carry out an option. -/
def Arguments.take (arguments : Arguments) (switch : Switch) (value : String) :
    Except Stop Arguments :=
  let given := { arguments with options := arguments.options ++ [(switch.name, value)] }
  match switch.effect with
  | .help => .error .help
  | .flag => .ok given
  | .value check =>
      match check.complaint? value with
      | none => .ok given
      | some complaint => .error (complain switch complaint)

/-- Carry out options one after the other. -/
def Arguments.takeAll (arguments : Arguments) (taken : List (Switch × String)) :
    Except Stop Arguments :=
  taken.foldlM (fun arguments (switch, value) => arguments.take switch value) arguments

/-- How far the operands have been read. -/
inductive Phase
  | waiting
  | reading
  | finished
deriving DecidableEq

/-- The phase after an option. -/
def Phase.afterOption : Phase → Phase
  | .waiting => .waiting
  | _ => .finished

/-- Every program must be given the operands that it takes. -/
def finish (grammar : Grammar) (phase : Phase) (arguments : Arguments) : Except Stop Arguments :=
  let require (title : String) : Except Stop Arguments :=
    if phase = .waiting then
      .error (.misuse s!"the following arguments are required: {title}")
    else .ok arguments
  match grammar.operands with
  | .nothing => .ok arguments
  | .some title => require title
  | .command title _ => require title

/-- The command and all that follows it. -/
def takeCommand (title : String) (choices : List String) (arguments : Arguments)
    (texts : List String) : Except Stop Arguments :=
  let name := (texts.head?).getD ""
  if choices.contains name then .ok { arguments with operands := texts }
  else .error (.misuse s!"argument {title}: {invalidChoice choices name}")

/-- Add what is not recognized. -/
def Arguments.leave (arguments : Arguments) (texts : List String) : Arguments :=
  { arguments with extras := arguments.extras ++ texts }

/-- Add an operand. -/
def Arguments.addOperand (arguments : Arguments) (text : String) : Arguments :=
  { arguments with operands := arguments.operands ++ [text] }

/-- Read arguments from the first to the last. -/
def consume (grammar : Grammar) : List Piece → Phase → Arguments → Except Stop Arguments
  | [], phase, arguments => finish grammar phase arguments
  | .option text candidate :: rest, phase, arguments => do
      let cluster ← candidate.cluster grammar text
      let arguments := arguments.leave cluster.extras
      match cluster.pending with
      | none =>
          let arguments ← arguments.takeAll cluster.taken
          consume grammar rest phase.afterOption arguments
      | some switch =>
          match rest with
          | .operand value :: rest =>
              let arguments ← arguments.takeAll (cluster.taken ++ [(switch, value)])
              consume grammar rest phase.afterOption arguments
          | _ => throw (complain switch "expected one argument")
  | .operand text :: rest, phase, arguments =>
      match grammar.operands, phase with
      | .nothing, _ => consume grammar rest phase (arguments.leave [text])
      | .some _, .finished => consume grammar rest phase (arguments.leave [text])
      | .some _, _ => consume grammar rest .reading (arguments.addOperand text)
      | .command title choices, _ =>
          takeCommand title choices arguments (text :: rest.map Piece.text)
  | .divider :: rest, phase, arguments =>
      match grammar.operands, phase with
      | .some _, .reading => consume grammar rest .reading arguments
      | .some _, .waiting =>
          if rest.isEmpty then consume grammar rest phase (arguments.leave ["--"])
          else consume grammar rest .reading arguments
      | .command title choices, _ =>
          if rest.isEmpty then consume grammar rest phase (arguments.leave ["--"])
          else takeCommand title choices arguments ("--" :: rest.map Piece.text)
      | _, _ => consume grammar rest phase (arguments.leave ["--"])

/-- Read the arguments of a program. -/
def Grammar.parse (grammar : Grammar) (arguments : List String) : Except Stop Arguments := do
  let pieces ← grammar.pieces arguments
  consume grammar pieces .waiting {}

namespace Arguments

/-- The last value that an option was given. -/
def value? (arguments : Arguments) (name : String) : Option String :=
  ((arguments.options.filter (·.1 == name)).getLast?).map (·.2)

/-- How often an option was given. -/
def count (arguments : Arguments) (name : String) : Nat :=
  (arguments.options.filter (·.1 == name)).length

end Arguments

/-- The complaint about arguments that are not recognized. -/
def unrecognized (extras : List String) : Except Stop Unit :=
  if extras.isEmpty then .ok ()
  else .error (.misuse ("unrecognized arguments: " ++ " ".intercalate extras))

/-- The option that every program knows. -/
def helpSwitch : Switch :=
  ⟨["-h", "--help"], .help⟩

end ApiCensus.CommandLine
