import ApiCensus.Index.Document
import ApiCensus.Report.Emit
import ApiCensus.Signature.Declaration

/-!
# Item listings

One line for each trait, type, function and trait impl, with its declaration.
-/

namespace ApiCensus

/-- A line of an item listing. -/
structure Listing where
  kind : String
  path : String
  signature : String
  generics : Int
  stability : String
  methods : Int
deriving DecidableEq, Repr

namespace Listing

/-- The categories that are listed. -/
def isListed : Category → Bool
  | .trait | .struct | .enum | .union | .function | .method | .requiredMethod
  | .providedMethod | .traitImpl => true
  | _ => false

/-- Order by kind, path and declaration. -/
def le (left right : Listing) : Bool :=
  decide (left.kind < right.kind) ||
    (left.kind == right.kind && keyLe (left.path, left.signature) (right.path, right.signature))

/-- Listings in their order. -/
def sort (listings : List Listing) : List Listing :=
  listings.mergeSort le

/-- The line of a classified item. -/
def ofItem (document : Document) (item : ClassifiedItem) : Except ShapeError Listing := do
  let signature ← match document.item? item.id with
    | some declared => Signature.declaration declared
    | none => throw .missingKey
  return {
    kind := item.category.name
    path := item.path
    signature
    generics := item.genericCount
    stability := item.stability.name
    methods := item.methodCount }

/-- The listing of a document without the items below excluded paths. -/
def ofDocument (document : Document) (classification : Classification) (excluded : Value) :
    Except ShapeError (List Listing) := do
  let (kept, _) ← filterExcluded excluded classification.items
  let listings ← (kept.filter fun item => isListed item.category).mapM (ofItem document)
  return sort listings

/-- The columns of a listing. -/
def columns : List String :=
  ["kind", "path", "signature", "generics", "stability", "methods"]

/-- Which columns hold numbers. -/
def numericColumns : List Bool :=
  columns.map fun name => name == "generics" || name == "methods"

/-- The cells of a line. -/
def cells (listing : Listing) : Except Failure (List String) := do
  let generics ← Number.writeInteger listing.generics
  let methods ← Number.writeInteger listing.methods
  return [listing.kind, listing.path, listing.signature, generics, listing.stability, methods]

/-- A listing in a presentation; there is no summary in words. -/
def emit (printer : Printer) (presentation : Presentation) (config : Value)
    (listings : List Listing) : Except Failure String := do
  let body ← listings.mapM cells
  match presentation with
  | .csv => return Csv.write printer.quotesReturns (columns :: body)
  | .markdown => return Markdown.table columns body numericColumns ++ "\n"
  | .table =>
      let output ← Report.outputSettings config
      printer.table (Report.tableFormat output) columns body numericColumns
  | .stats => throw (.presentation presentation.name ["csv", "table", "markdown"])

end Listing

end ApiCensus
