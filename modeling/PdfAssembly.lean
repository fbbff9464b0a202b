import PdfAssembly.Advice
import PdfAssembly.Cli.Arguments
import PdfAssembly.Cli.Calendar
import PdfAssembly.Cli.PlanText
import PdfAssembly.Cli.Program
import PdfAssembly.Cli.TimeZone
import PdfAssembly.Failure
import PdfAssembly.Files.Access
import PdfAssembly.Files.Path
import PdfAssembly.Files.System
import PdfAssembly.Json.Fault
import PdfAssembly.Json.Mismatch
import PdfAssembly.Json.Skip
import PdfAssembly.Json.Text
import PdfAssembly.Json.Value
import PdfAssembly.Main
import PdfAssembly.Number.Binary
import PdfAssembly.Number.Decimal
import PdfAssembly.Number.Numeral
import PdfAssembly.OrderedMap
import PdfAssembly.Pdf.Copy
import PdfAssembly.Pdf.Decoding
import PdfAssembly.Pdf.Deflate
import PdfAssembly.Pdf.Deflate.Bits
import PdfAssembly.Pdf.Deflate.Block
import PdfAssembly.Pdf.Deflate.Matching
import PdfAssembly.Pdf.Deflate.PrefixCode
import PdfAssembly.Pdf.Deflate.Symbol
import PdfAssembly.Pdf.Document
import PdfAssembly.Pdf.Encoding
import PdfAssembly.Pdf.Moment
import PdfAssembly.Pdf.Object
import PdfAssembly.Pdf.Output
import PdfAssembly.Pdf.PageTree
import PdfAssembly.Pdf.Source
import PdfAssembly.Pdf.Table
import PdfAssembly.Pipeline
import PdfAssembly.Pipeline.Ledger
import PdfAssembly.Proofs.Annotations
import PdfAssembly.Proofs.Assembly
import PdfAssembly.Proofs.Assignments
import PdfAssembly.Proofs.Atomicity
import PdfAssembly.Proofs.Attributes
import PdfAssembly.Proofs.Bookkeeping
import PdfAssembly.Proofs.Bounds
import PdfAssembly.Proofs.Calls
import PdfAssembly.Proofs.Copying
import PdfAssembly.Proofs.Dependence
import PdfAssembly.Proofs.Descent
import PdfAssembly.Proofs.Discovery
import PdfAssembly.Proofs.DryRun
import PdfAssembly.Proofs.Grammar
import PdfAssembly.Proofs.Growth
import PdfAssembly.Proofs.HiddenPages
import PdfAssembly.Proofs.History
import PdfAssembly.Proofs.Independence
import PdfAssembly.Proofs.Inheritance
import PdfAssembly.Proofs.Integrity
import PdfAssembly.Proofs.Listing
import PdfAssembly.Proofs.Numbering
import PdfAssembly.Proofs.Options
import PdfAssembly.Proofs.PageListFaults
import PdfAssembly.Proofs.PageTree
import PdfAssembly.Proofs.Repetition
import PdfAssembly.Proofs.Replay
import PdfAssembly.Proofs.Resaving
import PdfAssembly.Proofs.Results
import PdfAssembly.Proofs.Rotation
import PdfAssembly.Proofs.RotationFaults
import PdfAssembly.Proofs.Selection
import PdfAssembly.Proofs.SelectionFaults
import PdfAssembly.Proofs.SelectorText
import PdfAssembly.Proofs.Session
import PdfAssembly.Proofs.SettingsText
import PdfAssembly.Proofs.Sharing
import PdfAssembly.Proofs.Translation
import PdfAssembly.Proofs.TurnMaps
import PdfAssembly.Proofs.TurnOrder
import PdfAssembly.Proofs.Writing
import PdfAssembly.Settings
import PdfAssembly.Settings.File
import PdfAssembly.Settings.Json
import PdfAssembly.Spec.Error
import PdfAssembly.Spec.Item
import PdfAssembly.Spec.Rotation
import PdfAssembly.Spec.Selection
import PdfAssembly.Spec.Turn
import PdfAssembly.Store
import PdfAssembly.Text.Blank
import PdfAssembly.Text.Pieces
import PdfAssembly.Text.Quoted
import PdfAssembly.Text.Unshown
