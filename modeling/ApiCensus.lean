import ApiCensus.Analysis.Basic
import ApiCensus.Census.Category
import ApiCensus.Census.Classified
import ApiCensus.Census.Classify
import ApiCensus.Census.Stability
import ApiCensus.CommandLine.Log
import ApiCensus.CommandLine.Options
import ApiCensus.CommandLine.Request
import ApiCensus.CommandLine.Run
import ApiCensus.Config.Load
import ApiCensus.Config.Merge
import ApiCensus.Coverage.Gate
import ApiCensus.Coverage.Module
import ApiCensus.Failure
import ApiCensus.Files.Disk
import ApiCensus.Files.Path
import ApiCensus.Files.Tree
import ApiCensus.Index.Document
import ApiCensus.Index.Entry
import ApiCensus.Index.Item
import ApiCensus.Index.ItemId
import ApiCensus.Index.ItemKind
import ApiCensus.Index.Load
import ApiCensus.Index.LoadError
import ApiCensus.Json.Reader
import ApiCensus.Json.Writer
import ApiCensus.Main
import ApiCensus.Number.Binary64
import ApiCensus.Number.Fixed
import ApiCensus.Number.Floating
import ApiCensus.Number.Integer
import ApiCensus.Number.Rounding
import ApiCensus.Number.Shortest
import ApiCensus.Outer.Services
import ApiCensus.Outer.Table
import ApiCensus.Outer.Yaml.Cursor
import ApiCensus.Outer.Yaml.Load
import ApiCensus.Outer.Yaml.Node
import ApiCensus.Outer.Yaml.ScalarText
import ApiCensus.Outer.Yaml.Schema
import ApiCensus.Outer.Yaml.Token
import ApiCensus.Outer.Yaml.Token.Lexer
import ApiCensus.Paths.Resolution
import ApiCensus.Paths.Resolver
import ApiCensus.Report.Csv
import ApiCensus.Report.Emit
import ApiCensus.Report.Listing
import ApiCensus.Report.Markdown
import ApiCensus.Report.Presentation
import ApiCensus.Report.Printer
import ApiCensus.Report.Ratio
import ApiCensus.Report.Settings
import ApiCensus.Signature.Declaration
import ApiCensus.Signature.ReadType
import ApiCensus.Signature.TypeExpr
import ApiCensus.Tally.Aggregate
import ApiCensus.Tally.Counter
import ApiCensus.Tally.Grouping
import ApiCensus.Tally.Row
import ApiCensus.Tally.Summary
import ApiCensus.Text.Blank
import ApiCensus.Text.Case
import ApiCensus.Text.Digit
import ApiCensus.Text.Hex
import ApiCensus.Text.LineEnd
import ApiCensus.Text.Printable
import ApiCensus.Text.Quoted
import ApiCensus.Text.Search
import ApiCensus.Text.Utf8
import ApiCensus.Value.Basic
import ApiCensus.Value.Moment
import ApiCensus.Proofs.Outcome
import ApiCensus.Proofs.TextKeys
import ApiCensus.Proofs.IdentifierOrder
import ApiCensus.Proofs.LoadedDocument
import ApiCensus.Proofs.ItemGraph
import ApiCensus.Proofs.ResolverSteps
import ApiCensus.Proofs.ResolverRuns
import ApiCensus.Proofs.Questions
import ApiCensus.Proofs.Settling
import ApiCensus.Proofs.SettledItems
import ApiCensus.Proofs.TotalResolution
import ApiCensus.Proofs.CanonicalForest
import ApiCensus.Proofs.PlainLocation
import ApiCensus.Proofs.AdmissibleContainers
import ApiCensus.Proofs.EnclosingModules
import ApiCensus.Proofs.ShortestChains
import ApiCensus.Proofs.CycleWarnings
import ApiCensus.Proofs.References
import ApiCensus.Proofs.ReferenceCheck
import ApiCensus.Proofs.Containment
import ApiCensus.Proofs.FinalAnswers
import ApiCensus.Proofs.PlainReexports
import ApiCensus.Proofs.AlikeDocuments
import ApiCensus.Proofs.ReorderedIndex
import ApiCensus.Proofs.ReorderedLoading
import ApiCensus.Proofs.OrderIndependence
import ApiCensus.Proofs.KeyedSums
import ApiCensus.Proofs.GroupedRows
import ApiCensus.Proofs.AnalysisStages
import ApiCensus.Proofs.Conservation
import ApiCensus.Proofs.SeparateSources
import ApiCensus.Proofs.WrittenIntegers
import ApiCensus.Proofs.CsvRecords
import ApiCensus.Proofs.ReportReadBack
import ApiCensus.Proofs.CurrentLayout
import ApiCensus.Proofs.LayoutLoading
import ApiCensus.Proofs.MergedSettings
import ApiCensus.Proofs.HardenedAnalysis
import ApiCensus.Proofs.CommandRuns
import ApiCensus.Proofs.ListedItems
import ApiCensus.Proofs.LoadFailures
import ApiCensus.Proofs.OrderedContainers
import ApiCensus.Proofs.WrittenRatios
import ApiCensus.Proofs.ReadingTexts
import ApiCensus.Proofs.ReportRoundTrip
import ApiCensus.Proofs.GroupSums
import ApiCensus.Proofs.RunEffects
import ApiCensus.Proofs.JoinedNames
import ApiCensus.Proofs.ParallelRuns
import ApiCensus.Proofs.SeparatorChoices
import ApiCensus.Proofs.TiedPaths
import ApiCensus.Proofs.Separators
import ApiCensus.Proofs.InheritedVisibility
import ApiCensus.Proofs.RecordKeys
import ApiCensus.Proofs.DeclaredGenerics
import ApiCensus.Proofs.MergedLeaves
import ApiCensus.Proofs.MethodCounts
import ApiCensus.Proofs.TableCells
import ApiCensus.Proofs.Brackets
import ApiCensus.Proofs.CopiedParts
import ApiCensus.Proofs.RenderedTypes
