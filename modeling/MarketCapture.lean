import MarketCapture.Lib.Decimal
import MarketCapture.Lib.Cursor
import MarketCapture.Lib.Json
import MarketCapture.Lib.Utf8
import MarketCapture.Lib.Quoting
import MarketCapture.Lib.FileSystem
import MarketCapture.Lib.History
import MarketCapture.Lib.Probing
import MarketCapture.Lib.Ring
import MarketCapture.Lib.Transition
import MarketCapture.Payload.Types
import MarketCapture.Payload.FixedPoint
import MarketCapture.Payload.DecimalExact
import MarketCapture.Payload.SymbolIdentity
import MarketCapture.Payload.Ondemand
import MarketCapture.Payload.Document
import MarketCapture.Payload.Structurals
import MarketCapture.Payload.Iteration
import MarketCapture.Payload.Tokens
import MarketCapture.Payload.Reading
import MarketCapture.Payload.Recognition
import MarketCapture.Payload.Validation
import MarketCapture.Payload.DuplicateTable
import MarketCapture.Payload.DuplicateHistory
import MarketCapture.Payload.NumberScanner
import MarketCapture.Payload.Parser
import MarketCapture.Payload.ParserFacts
import MarketCapture.Payload.LevelAcceptance
import MarketCapture.Payload.DepthAcceptance
import MarketCapture.Book.TopFive
import MarketCapture.Book.Levels
import MarketCapture.Book.Invariant
import MarketCapture.Book.Differential
import MarketCapture.Book.Sequencing
import MarketCapture.Book.FullDepth
import MarketCapture.Book.Runs
import MarketCapture.Csv.Formatter
import MarketCapture.Csv.OrderBookRow
import MarketCapture.Csv.ReplayReader
import MarketCapture.Csv.Framing
import MarketCapture.Csv.Grammar
import MarketCapture.Csv.Acceptance
import MarketCapture.Processor.EventProcessor
import MarketCapture.Processor.Outcome
import MarketCapture.Processor.Runs
import MarketCapture.Processor.Agreement
import MarketCapture.Processor.Commit
import MarketCapture.Processor.RowBounds
import MarketCapture.Processor.ReplayFile
import MarketCapture.Processor.ReplayAudit
import MarketCapture.Processor.Traversal
import MarketCapture.Processor.Eligibility
import MarketCapture.Processor.Validity
import MarketCapture.Live.Subscription
import MarketCapture.Live.CommandLine
import MarketCapture.Live.Routing
import MarketCapture.Live.Envelope
import MarketCapture.Live.Pipeline
import MarketCapture.Live.EnvelopeRouting
import MarketCapture.Live.EnvelopeSpacing
import MarketCapture.Live.ReplayAgreement
import MarketCapture.Live.Noninterference
import MarketCapture.Live.Message
import MarketCapture.Writer.FileSink
import MarketCapture.Writer.SinkRuns
import MarketCapture.Writer.OutputSet
import MarketCapture.Writer.Opening
import MarketCapture.Writer.Rollback
import MarketCapture.Writer.CsvWriter
import MarketCapture.Writer.Queue
import MarketCapture.Writer.Resume
import MarketCapture.Writer.Shutdown
import MarketCapture.Writer.Delivery
import MarketCapture.Writer.Accounting
import MarketCapture.Writer.Failure
import MarketCapture.Writer.Contract
import MarketCapture.Writer.Publication
import MarketCapture.Session.WebSocketSession
import MarketCapture.Session.Lifecycle
import MarketCapture.Session.Owner
import MarketCapture.Controller.Backoff
import MarketCapture.Controller.LiveCaptureController
import MarketCapture.Controller.Invariant
import MarketCapture.Controller.Callbacks
import MarketCapture.Controller.Epochs
import MarketCapture.Controller.FirstFailure
import MarketCapture.Controller.Quiescence
import MarketCapture.Controller.Capture
import MarketCapture.Controller.Beside
import MarketCapture.Controller.Balance
import MarketCapture.Controller.Gate
import MarketCapture.Controller.Headroom
import MarketCapture.Controller.Trace
import MarketCapture.Controller.Emission
import MarketCapture.Controller.Files
import MarketCapture.Application.Replay
import MarketCapture.Application.ReplayOutput
import MarketCapture.Application.LiveRunLoop
