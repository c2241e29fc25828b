import ApiCensus.Outer.Yaml.Node
import ApiCensus.Outer.Yaml.Token.Lexer

/-!
# Values of YAML texts

The merge key `<<` of a mapping brings in the entries of other mappings, which
come before the mapping's own.  Of equal keys the first keeps its place and the
last gives the value.
-/

namespace ApiCensus.Yaml

/-- Entries of a mapping: those merged in and its own. -/
structure Entries where
  merged : List (Scalar × Value) := []
  own : List (Scalar × Value) := []

/-- All entries, the merged ones first. -/
def Entries.all (entries : Entries) : List (Scalar × Value) :=
  entries.merged ++ entries.own

/-- Put entries into a record one after the other. -/
def collect (entries : List (Scalar × Value)) : List (Scalar × Value) :=
  entries.foldl (fun done entry => Value.put entry.1 entry.2 done) []

namespace Node

/-- The key of an entry, which must be a scalar. -/
def toKey : Node → Except Failure Scalar
  | .scalar .defaultValue text => .ok (.text text)
  | .scalar tag text => tag.scalar text
  | _ => .error .yaml

mutual

/-- The value of a node. -/
def toValue : Node → Except Failure Value
  | .scalar tag text => .scalar <$> tag.scalar text
  | .sequence tag elements =>
      if tag = .sequence then .list <$> toValues elements else .error .yaml
  | .mapping tag entries =>
      if tag = .mapping then do return .record (collect (← toEntries entries).all)
      else .error .yaml

/-- The values of nodes. -/
def toValues : List Node → Except Failure (List Value)
  | [] => .ok []
  | node :: rest => do return (← toValue node) :: (← toValues rest)

/-- The entries of a mapping. -/
def toEntries : List (Node × Node) → Except Failure Entries
  | [] => .ok {}
  | (key, value) :: rest => do
      if key.tag = .merge then
        let merged ← toMerged value
        let entries ← toEntries rest
        return { entries with merged := merged ++ entries.merged }
      else
        let entry := (← toKey key, ← toValue value)
        let entries ← toEntries rest
        return { entries with own := entry :: entries.own }

/-- The entries that a merge key brings in: those of a mapping, or those of the
mappings of a sequence, the last mapping first. -/
def toMerged : Node → Except Failure (List (Scalar × Value))
  | .scalar _ _ => .error .yaml
  | .mapping _ entries => do return (← toEntries entries).all
  | .sequence _ elements => toMergedAll elements

/-- The entries of the mappings of a sequence, the last mapping first. -/
def toMergedAll : List Node → Except Failure (List (Scalar × Value))
  | [] => .ok []
  | .mapping _ entries :: rest => do
      let first := (← toEntries entries).all
      return (← toMergedAll rest) ++ first
  | _ :: _ => .error .yaml

end

end Node

/-- The value of a text, null if it is empty. -/
def load (text : String) : Except Failure Value := do
  match ← Node.ofTokens (← tokens text) with
  | none => return .null
  | some root => root.toValue

end ApiCensus.Yaml
