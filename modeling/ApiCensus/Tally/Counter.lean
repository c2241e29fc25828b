/-!
# Counters

Amounts are added up under keys in one pass.  Keys come in the order of their first
occurrence.
-/

namespace ApiCensus

variable {κ μ : Type} [DecidableEq κ] [Add μ]

/-- Add an amount under a key: to what the key has, or as a new entry that comes
last. -/
def addUnder (key : κ) (amount : μ) : List (κ × μ) → List (κ × μ)
  | [] => [(key, amount)]
  | (present, sum) :: rest =>
      if present = key then (present, sum + amount) :: rest
      else (present, sum) :: addUnder key amount rest

/-- Add entries one after the other, starting from an empty table. -/
def accumulate (entries : List (κ × μ)) : List (κ × μ) :=
  entries.foldl (fun table entry => addUnder entry.1 entry.2 table) []

/-- Add entries up under texts, in the order of the texts. -/
def addUp (entries : List (String × μ)) : List (String × μ) :=
  (accumulate entries).mergeSort fun left right => !decide (right.1 < left.1)

end ApiCensus
