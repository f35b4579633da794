import MdxLocalization.Change
import MdxLocalization.Command.Action
import MdxLocalization.Command.Invocation
import MdxLocalization.Command.Menu
import MdxLocalization.Command.Option
import MdxLocalization.Command.Program
import MdxLocalization.Config.EnvFile
import MdxLocalization.Config.Layer
import MdxLocalization.Config.Settings
import MdxLocalization.Console.CellWidth
import MdxLocalization.Console.Markup
import MdxLocalization.Console.Message
import MdxLocalization.Console.Wrap
import MdxLocalization.Document.Element
import MdxLocalization.Document.Fragment
import MdxLocalization.Document.Parsing
import MdxLocalization.Esm
import MdxLocalization.Extract.Body
import MdxLocalization.Extract.Document
import MdxLocalization.Extract.Error
import MdxLocalization.Extract.ModuleAddress
import MdxLocalization.Extract.SourceText
import MdxLocalization.Extract.Title
import MdxLocalization.Files.Path
import MdxLocalization.Files.Store
import MdxLocalization.Inline.CodeSpan
import MdxLocalization.Inline.Link
import MdxLocalization.Inline.Scan
import MdxLocalization.Json.Printer
import MdxLocalization.Json.Reader
import MdxLocalization.Json.Value
import MdxLocalization.Jsx.Tag
import MdxLocalization.Locale.Tag
import MdxLocalization.Locale.Template
import MdxLocalization.Locale.Url
import MdxLocalization.Log.Event
import MdxLocalization.Log.Panel
import MdxLocalization.Log.Threshold
import MdxLocalization.Log.Traced
import MdxLocalization.Main
import MdxLocalization.Markdown.Address
import MdxLocalization.Markdown.Autolink
import MdxLocalization.Markdown.Block
import MdxLocalization.Markdown.Definition
import MdxLocalization.Markdown.Destination
import MdxLocalization.Markdown.Emphasis
import MdxLocalization.Markdown.Entity
import MdxLocalization.Markdown.HtmlTag
import MdxLocalization.Markdown.Interruption
import MdxLocalization.Markdown.Leaf
import MdxLocalization.Markdown.Line
import MdxLocalization.Markdown.Mark
import MdxLocalization.Markdown.Nesting
import MdxLocalization.Markdown.Phrase
import MdxLocalization.Markdown.Phrasing
import MdxLocalization.Markdown.Punctuation
import MdxLocalization.Markdown.Punycode
import MdxLocalization.Markdown.Reading
import MdxLocalization.Markdown.Scope
import MdxLocalization.Markdown.TableMark
import MdxLocalization.Number.Binary64
import MdxLocalization.Number.DecimalText
import MdxLocalization.Number.IntegerText
import MdxLocalization.Number.Shortest
import MdxLocalization.Page.Context
import MdxLocalization.Page.Markup
import MdxLocalization.ParseError
import MdxLocalization.Patch
import MdxLocalization.Payload
import MdxLocalization.Proofs.AnchoredTrees
import MdxLocalization.Proofs.BacktickRuns
import MdxLocalization.Proofs.BlockNesting
import MdxLocalization.Proofs.BlockOrder
import MdxLocalization.Proofs.BlockOrigins
import MdxLocalization.Proofs.BlockText
import MdxLocalization.Proofs.CanonicalLinks
import MdxLocalization.Proofs.CellBounds
import MdxLocalization.Proofs.CellRegions
import MdxLocalization.Proofs.ChangeOrigins
import MdxLocalization.Proofs.ClientSession
import MdxLocalization.Proofs.CodeSpans
import MdxLocalization.Proofs.Collision
import MdxLocalization.Proofs.DirectoryMaking
import MdxLocalization.Proofs.ElementNesting
import MdxLocalization.Proofs.ElementRange
import MdxLocalization.Proofs.Encoding
import MdxLocalization.Proofs.ExtractionFiles
import MdxLocalization.Proofs.ExtractionSteps
import MdxLocalization.Proofs.FileWriting
import MdxLocalization.Proofs.FoldedContent
import MdxLocalization.Proofs.FragmentDescent
import MdxLocalization.Proofs.FragmentNesting
import MdxLocalization.Proofs.FragmentRange
import MdxLocalization.Proofs.HeadingRegions
import MdxLocalization.Proofs.ImportStatements
import MdxLocalization.Proofs.InlineCut
import MdxLocalization.Proofs.InlineRange
import MdxLocalization.Proofs.InlineShift
import MdxLocalization.Proofs.InlineTiling
import MdxLocalization.Proofs.JsonReading
import MdxLocalization.Proofs.JsonScalar
import MdxLocalization.Proofs.JsonSpelling
import MdxLocalization.Proofs.LabelRespelling
import MdxLocalization.Proofs.LineBreakChanges
import MdxLocalization.Proofs.LineBreakFragment
import MdxLocalization.Proofs.LineBreakMarkup
import MdxLocalization.Proofs.LineBreakModules
import MdxLocalization.Proofs.LineBreakParse
import MdxLocalization.Proofs.LineBreakSurvey
import MdxLocalization.Proofs.LineBreakText
import MdxLocalization.Proofs.LineBreakTitle
import MdxLocalization.Proofs.LineBreakTree
import MdxLocalization.Proofs.LineCuts
import MdxLocalization.Proofs.LineExtents
import MdxLocalization.Proofs.LinePositions
import MdxLocalization.Proofs.LinkDestinations
import MdxLocalization.Proofs.LinkFates
import MdxLocalization.Proofs.LinkSpelling
import MdxLocalization.Proofs.LiteralTitles
import MdxLocalization.Proofs.LiteralValues
import MdxLocalization.Proofs.LocalizedAddress
import MdxLocalization.Proofs.LogIndependence
import MdxLocalization.Proofs.MalformedFiles
import MdxLocalization.Proofs.MarkupRange
import MdxLocalization.Proofs.NestedElements
import MdxLocalization.Proofs.NodeEquality
import MdxLocalization.Proofs.NodeSites
import MdxLocalization.Proofs.PageTags
import MdxLocalization.Proofs.ParseNesting
import MdxLocalization.Proofs.ParseOverrun
import MdxLocalization.Proofs.ParseRange
import MdxLocalization.Proofs.PartialPatching
import MdxLocalization.Proofs.PatchAgreement
import MdxLocalization.Proofs.Patching
import MdxLocalization.Proofs.PathSegments
import MdxLocalization.Proofs.PayloadLineBreaks
import MdxLocalization.Proofs.PayloadRoundTrip
import MdxLocalization.Proofs.Placement
import MdxLocalization.Proofs.PrintedTags
import MdxLocalization.Proofs.ReadingOrder
import MdxLocalization.Proofs.RebuiltLinks
import MdxLocalization.Proofs.RepeatedLocalization
import MdxLocalization.Proofs.RunEffects
import MdxLocalization.Proofs.RunSteps
import MdxLocalization.Proofs.SavedFiles
import MdxLocalization.Proofs.ScanSteps
import MdxLocalization.Proofs.ServiceCalls
import MdxLocalization.Proofs.Splicing
import MdxLocalization.Proofs.SurveyBounds
import MdxLocalization.Proofs.SurveyCoverage
import MdxLocalization.Proofs.SurveyFootprint
import MdxLocalization.Proofs.SurveyOrder
import MdxLocalization.Proofs.SurveySuccess
import MdxLocalization.Proofs.TextPieces
import MdxLocalization.Proofs.TitleLines
import MdxLocalization.Proofs.TracedOutcome
import MdxLocalization.Proofs.TreeNesting
import MdxLocalization.Proofs.TreeRange
import MdxLocalization.Proofs.UpdateOutcome
import MdxLocalization.Proofs.UpdateRun
import MdxLocalization.Proofs.UploadRun
import MdxLocalization.Proofs.Validation
import MdxLocalization.Proofs.Weaving
import MdxLocalization.Service.Client
import MdxLocalization.Service.Endpoint
import MdxLocalization.Service.Exchange
import MdxLocalization.SourceLines
import MdxLocalization.Span
import MdxLocalization.Text.Basic
import MdxLocalization.Text.Blank
import MdxLocalization.Text.Digit
import MdxLocalization.Text.Quoted
import MdxLocalization.Text.Ranges
import MdxLocalization.Text.Upper
import MdxLocalization.Text.Utf8
import MdxLocalization.Text.Word
import MdxLocalization.Tree.Json
import MdxLocalization.Tree.Node
import MdxLocalization.Workflow.Extraction
import MdxLocalization.Workflow.Failure
import MdxLocalization.Workflow.Update
import MdxLocalization.Workflow.Upload
import MdxLocalization.Workspace
