import ApiCensus.Census.Classify
import ApiCensus.Config.Merge
import ApiCensus.Index.Load
import ApiCensus.Paths.Resolver
import ApiCensus.Report.Emit
import ApiCensus.Report.Listing

/-!
# Analysing indexes

Each index is loaded, resolved and classified on its own.  The items of all of
them are then counted together, without those below excluded paths.
-/

namespace ApiCensus

/-- A document with the paths and the classification of its items. -/
structure AnalyzedDocument where
  document : Document
  resolution : Resolution
  classification : Classification

/-- Resolve and classify a document. -/
def Document.analyze (document : Document) (config : Value) :
    Except Failure AnalyzedDocument := do
  let resolution ← document.resolve config
  let classification ← document.classify resolution config
  return { document, resolution, classification }

/-- What a report is made from. -/
structure Analysis where
  grouping : Grouping
  rows : List Row
  items : List ClassifiedItem
  excluded : Nat
  documents : List AnalyzedDocument

namespace Analysis

/-- The cycles of all documents. -/
def warnings (analysis : Analysis) : List Cycle :=
  analysis.documents.flatMap (·.resolution.warnings)

/-- How often each unknown tag occurs in all documents, in the order of the tags. -/
def unrecognized (analysis : Analysis) : List (String × Nat) :=
  addUp (analysis.documents.flatMap (·.classification.unrecognized))

/-- The kept items that are deprecated. -/
def deprecated (analysis : Analysis) : List ClassifiedItem :=
  analysis.items.filter (·.isDeprecated)

/-- The beginnings of excluded paths that a configuration names. -/
def excludedPaths (config : Value) : Except ShapeError Value := do
  let config ← config.asRecord
  return (config.get "exclude_paths").orElse (.list [])

/-- Count the items of analysed documents together. -/
def ofDocuments (documents : List AnalyzedDocument) (grouping : Grouping) (config : Value) :
    Except Failure Analysis := do
  let excludedPaths ← excludedPaths config
  let items := documents.flatMap (·.classification.items)
  let (kept, excluded) ← filterExcluded excludedPaths items
  return { grouping, rows := aggregate grouping kept, items := kept, excluded, documents }

/-- Load and analyse one index. -/
def examine (config : Value) (source : Index.Source) : Except Failure AnalyzedDocument := do
  let document ← Index.load source
  document.analyze config

/-- Analyse indexes and count their items together. The first source that cannot
be examined decides. -/
def run (sources : List Index.Source) (grouping : Grouping) (config : Value) :
    Except Failure Analysis := do
  let documents ← sources.mapM (examine config)
  ofDocuments documents grouping config

/-- The report of an analysis. -/
def report (analysis : Analysis) (printer : Printer) (presentation : Presentation)
    (config : Value) : Except Failure String :=
  Report.emit printer presentation analysis.grouping config analysis.rows analysis.warnings
    analysis.deprecated

/-- The listings of all documents together. -/
def listings (analysis : Analysis) (config : Value) : Except Failure (List Listing) := do
  let excluded ← excludedPaths config
  let listings ← analysis.documents.mapM fun analyzed =>
    Listing.ofDocument analyzed.document analyzed.classification excluded
  return Listing.sort listings.flatten

end Analysis

end ApiCensus
