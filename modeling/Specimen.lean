import Specimen.CommandLine.Help
import Specimen.CommandLine.Options
import Specimen.CommandLine.Session
import Specimen.Config
import Specimen.Decimal.Shortest
import Specimen.Declaration.Basic
import Specimen.Declaration.Size
import Specimen.Description.Build
import Specimen.Description.Term
import Specimen.Description.Value
import Specimen.Error
import Specimen.Failure
import Specimen.FileTree.Basic
import Specimen.FileTree.Change
import Specimen.FileTree.Handle
import Specimen.Host
import Specimen.Json.Basic
import Specimen.Json.Number
import Specimen.Json.Printer
import Specimen.Json.Reader
import Specimen.Json.Record
import Specimen.Layout.Basic
import Specimen.Layout.Wire
import Specimen.Main
import Specimen.NameTable
import Specimen.Path
import Specimen.Pipe
import Specimen.Process
import Specimen.Program.Block
import Specimen.Program.Code
import Specimen.Program.Emission
import Specimen.Program.Machine
import Specimen.Program.Source
import Specimen.Proofs.AbsolutePaths
import Specimen.Proofs.Artefacts
import Specimen.Proofs.Behaviour
import Specimen.Proofs.Callbacks
import Specimen.Proofs.Capturing
import Specimen.Proofs.Chunking
import Specimen.Proofs.ClassNames
import Specimen.Proofs.ClosedUnits
import Specimen.Proofs.Combining
import Specimen.Proofs.Consistent
import Specimen.Proofs.Constructors
import Specimen.Proofs.Declarations
import Specimen.Proofs.Declaring
import Specimen.Proofs.DeclaringInOrder
import Specimen.Proofs.DecodedLines
import Specimen.Proofs.DecodedParts
import Specimen.Proofs.Dependencies
import Specimen.Proofs.Enumeration
import Specimen.Proofs.Exchanges
import Specimen.Proofs.Executions
import Specimen.Proofs.FaithfulNames
import Specimen.Proofs.FieldNames
import Specimen.Proofs.FilesKept
import Specimen.Proofs.Flattening
import Specimen.Proofs.FunctionFiles
import Specimen.Proofs.FunctionHeads
import Specimen.Proofs.GivenNames
import Specimen.Proofs.Influence
import Specimen.Proofs.Inventory
import Specimen.Proofs.Listing
import Specimen.Proofs.Literals
import Specimen.Proofs.Made
import Specimen.Proofs.Mentions
import Specimen.Proofs.Names
import Specimen.Proofs.Odometer
import Specimen.Proofs.Outcome
import Specimen.Proofs.Overrides
import Specimen.Proofs.PathOrder
import Specimen.Proofs.Pieces
import Specimen.Proofs.PipeFiles
import Specimen.Proofs.PlacesTouched
import Specimen.Proofs.ProgramRuns
import Specimen.Proofs.Redeclaring
import Specimen.Proofs.ReportLines
import Specimen.Proofs.RoundTrip
import Specimen.Proofs.Running
import Specimen.Proofs.SameSignature
import Specimen.Proofs.SharedRuns
import Specimen.Proofs.Sharing
import Specimen.Proofs.ShortStreams
import Specimen.Proofs.Signals
import Specimen.Proofs.SignatureKey
import Specimen.Proofs.SourceDirs
import Specimen.Proofs.Sources
import Specimen.Proofs.Stages
import Specimen.Proofs.StructNames
import Specimen.Proofs.StubPlaces
import Specimen.Proofs.Stubs
import Specimen.Proofs.ValueDocuments
import Specimen.Proofs.ValueTexts
import Specimen.Proofs.Variables
import Specimen.Proofs.Ways
import Specimen.Proofs.WellFormed
import Specimen.Report.Exchange
import Specimen.Report.Listener
import Specimen.Report.Message
import Specimen.Run.Collect
import Specimen.Run.Compilation
import Specimen.Run.Execution
import Specimen.Run.Functions
import Specimen.Run.Sharing
import Specimen.Schema.Basic
import Specimen.Schema.Canonical
import Specimen.Schema.Checked
import Specimen.Schema.Default
import Specimen.Schema.Equality
import Specimen.Schema.Layout
import Specimen.Schema.Override
import Specimen.Stream
import Specimen.Target
import Specimen.Text.Blank
import Specimen.Text.Cut
import Specimen.Text.Hidden
import Specimen.Text.Identifier
import Specimen.Text.Quoted
import Specimen.Text.Utf8
import Specimen.Value
