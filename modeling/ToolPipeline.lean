import ToolPipeline.Codec.Base64
import ToolPipeline.Codec.Image
import ToolPipeline.Codec.Sha256
import ToolPipeline.Command.Arguments
import ToolPipeline.Command.Error
import ToolPipeline.Command.Perform
import ToolPipeline.Command.Run
import ToolPipeline.Command.Service
import ToolPipeline.Command.Setup
import ToolPipeline.Decimal.Layout
import ToolPipeline.Decimal.Numeral
import ToolPipeline.Decimal.Shortest
import ToolPipeline.File.Tree
import ToolPipeline.Http.Cors
import ToolPipeline.Http.MediaType
import ToolPipeline.Http.Message
import ToolPipeline.Json.Basic
import ToolPipeline.Json.Fault
import ToolPipeline.Json.Lexeme
import ToolPipeline.Json.Printer
import ToolPipeline.Json.Reader
import ToolPipeline.Json.Shape
import ToolPipeline.Json.Skip
import ToolPipeline.Log.Capture
import ToolPipeline.Log.Directive
import ToolPipeline.Log.Entry
import ToolPipeline.Log.Event
import ToolPipeline.Log.Filter
import ToolPipeline.Main
import ToolPipeline.Moment.RunId
import ToolPipeline.Moment.Stamp
import ToolPipeline.Pattern.CharClass
import ToolPipeline.Pattern.Expr
import ToolPipeline.Pattern.Notation
import ToolPipeline.Pattern.Program
import ToolPipeline.Pattern.Reader
import ToolPipeline.Pipeline.Engine
import ToolPipeline.Pipeline.Error
import ToolPipeline.Pipeline.Options
import ToolPipeline.Pipeline.Pool
import ToolPipeline.Pipeline.Progress
import ToolPipeline.Pipeline.Recorder
import ToolPipeline.Pipeline.Request
import ToolPipeline.Pipeline.Run
import ToolPipeline.Pipeline.State
import ToolPipeline.Pipeline.Token
import ToolPipeline.Pipeline.Trace
import ToolPipeline.Pipeline.Validation
import ToolPipeline.Pipeline.Worker
import ToolPipeline.Server.ApiError
import ToolPipeline.Server.Config
import ToolPipeline.Server.Connection
import ToolPipeline.Server.Frame
import ToolPipeline.Server.Health
import ToolPipeline.Server.Rest
import ToolPipeline.Server.Router
import ToolPipeline.Server.Session
import ToolPipeline.Server.Shutdown
import ToolPipeline.Server.Traffic
import ToolPipeline.Settings.Basic
import ToolPipeline.Settings.Datum
import ToolPipeline.Settings.Environment
import ToolPipeline.Settings.File
import ToolPipeline.Settings.Layer
import ToolPipeline.Settings.Load
import ToolPipeline.Text.Blank
import ToolPipeline.Text.Hex
import ToolPipeline.Text.Letter
import ToolPipeline.Text.Octets
import ToolPipeline.Text.Quoted
import ToolPipeline.Text.Ranges
import ToolPipeline.Text.Shown
import ToolPipeline.Text.Split
import ToolPipeline.Tool.Basic
import ToolPipeline.Tool.Debug
import ToolPipeline.Tool.Frame
import ToolPipeline.Tool.Plugin
import ToolPipeline.Tool.Registry
import ToolPipeline.Proofs.Pipeline.Course
import ToolPipeline.Proofs.Pipeline.RunCourse
import ToolPipeline.Proofs.Pipeline.Stepwise
import ToolPipeline.Proofs.Pipeline.CourseAgreement
import ToolPipeline.Proofs.Json.Members
import ToolPipeline.Proofs.Json.HeldRecord
import ToolPipeline.Proofs.Json.PlainShapes
import ToolPipeline.Proofs.Server.FrameGrammar
import ToolPipeline.Proofs.Tool.FrameInspection
import ToolPipeline.Proofs.Tool.FrameChain
import ToolPipeline.Proofs.Pipeline.Steady
import ToolPipeline.Proofs.Json.TypedReading
import ToolPipeline.Proofs.Server.AnswerTexts
import ToolPipeline.Proofs.Server.Transports
import ToolPipeline.Proofs.Pipeline.Lifecycle
import ToolPipeline.Proofs.Pipeline.Interruption
import ToolPipeline.Proofs.Server.ConnectionMoves
import ToolPipeline.Proofs.Server.SoundConnection
import ToolPipeline.Proofs.Server.FrameSlots
import ToolPipeline.Proofs.Server.ReplyAccounts
import ToolPipeline.Proofs.Server.Replies
import ToolPipeline.Proofs.Server.TrafficMoves
import ToolPipeline.Proofs.Server.CancellationScope
import ToolPipeline.Proofs.Pipeline.Admission
import ToolPipeline.Proofs.Server.BarredRequests
import ToolPipeline.Proofs.Pipeline.AuditTrail
import ToolPipeline.Proofs.Pipeline.Containment
import ToolPipeline.Proofs.Pipeline.Discretion
import ToolPipeline.Proofs.Interleaving
import ToolPipeline.Proofs.Pipeline.ChainedRuns
import ToolPipeline.Proofs.Pipeline.SideBySide
import ToolPipeline.Proofs.Server.AcceptedSettings
import ToolPipeline.Proofs.Settings.Leaves
import ToolPipeline.Proofs.Settings.LayerLeaves
import ToolPipeline.Proofs.Settings.LiteralFiles
import ToolPipeline.Proofs.Settings.Layering
import ToolPipeline.Proofs.Json.SkippedScalars
import ToolPipeline.Proofs.Json.Skipping
import ToolPipeline.Proofs.Json.Judgements
import ToolPipeline.Proofs.Json.RecordMembers
import ToolPipeline.Proofs.Json.RecordTexts
import ToolPipeline.Proofs.Json.Flaws
import ToolPipeline.Proofs.Json.BrokenTexts
import ToolPipeline.Proofs.Server.RequestBodies
import ToolPipeline.Proofs.Tool.Registration
import ToolPipeline.Proofs.Pipeline.ComposedRuns
import ToolPipeline.Proofs.Pipeline.Truncation
import ToolPipeline.Proofs.Server.WireTexts
import ToolPipeline.Proofs.Pipeline.FirstFault
import ToolPipeline.Proofs.Pipeline.LifecycleLanguage
import ToolPipeline.Proofs.Pipeline.Tally
import ToolPipeline.Proofs.Pipeline.ClosingEvents
import ToolPipeline.Proofs.Pipeline.DiscardedSteps
import ToolPipeline.Proofs.Text.Parts
import ToolPipeline.Proofs.Codec.PngHeader
import ToolPipeline.Proofs.Codec.Base64Texts
import ToolPipeline.Proofs.Tool.ImageReports
import ToolPipeline.Proofs.Tool.ImageTexts
import ToolPipeline.Proofs.Tool.TraceChain
import ToolPipeline.Proofs.Json.ReadTrees
import ToolPipeline.Proofs.Server.RequestMembers
import ToolPipeline.Proofs.Codec.FormatMarks
import ToolPipeline.Proofs.Codec.ImageInspection
import ToolPipeline.Proofs.Server.ReplyTexts
import ToolPipeline.Proofs.Text.CutOctets
import ToolPipeline.Proofs.Json.IndentedTexts
import ToolPipeline.Proofs.Settings.LiteralTexts
import ToolPipeline.Proofs.Settings.WrittenSettings
