import PageServer.Accounts.Backend
import PageServer.Accounts.Rows
import PageServer.Accounts.Table
import PageServer.Accounts.TableFile
import PageServer.Config.Basic
import PageServer.Config.CommandLine
import PageServer.Config.Setting
import PageServer.Connection.Basic
import PageServer.Connection.Parsing
import PageServer.Connection.Reading
import PageServer.Connection.Serving
import PageServer.Connection.Session
import PageServer.Connection.Writing
import PageServer.Digest.Sha256
import PageServer.Disk.Change
import PageServer.Disk.File
import PageServer.Disk.Mapping
import PageServer.Disk.Path
import PageServer.Disk.Tree
import PageServer.Error
import PageServer.Fault
import PageServer.Http.Header
import PageServer.Http.Line
import PageServer.Http.Request
import PageServer.Http.RequestLine
import PageServer.Http.ResponseBuffer
import PageServer.Http.Status
import PageServer.Json.Quoted
import PageServer.Json.Skip
import PageServer.Log.Directive
import PageServer.Log.Event
import PageServer.Log.Filter
import PageServer.Log.Pattern
import PageServer.Log.Pattern.Atom
import PageServer.Log.Pattern.CharSet
import PageServer.Log.Pattern.Group
import PageServer.Log.Pattern.Mode
import PageServer.Main
import PageServer.Metrics.Counters
import PageServer.Metrics.Latency
import PageServer.Metrics.Report
import PageServer.Net.Address
import PageServer.Net.Listener
import PageServer.Net.Queue
import PageServer.Net.Stream
import PageServer.Pool.Basic
import PageServer.Program
import PageServer.Proofs.Connection.Answering
import PageServer.Proofs.Connection.Chunking
import PageServer.Proofs.Connection.Client
import PageServer.Proofs.Connection.Conversation
import PageServer.Proofs.Connection.Cursors
import PageServer.Proofs.Connection.Intake
import PageServer.Proofs.Connection.Lifecycle
import PageServer.Proofs.Connection.Preparing
import PageServer.Proofs.Connection.Progress
import PageServer.Proofs.Connection.Recognition
import PageServer.Proofs.Connection.Sending
import PageServer.Proofs.Connection.Standing
import PageServer.Proofs.Connection.Transmission
import PageServer.Proofs.Http.Appending
import PageServer.Proofs.Http.BodyLength
import PageServer.Proofs.Http.Grammar
import PageServer.Proofs.Http.LineEnd
import PageServer.Proofs.Http.LineScan
import PageServer.Proofs.Pool.Lending
import PageServer.Proofs.Server.Agenda
import PageServer.Proofs.Server.Balance
import PageServer.Proofs.Server.Chronicle
import PageServer.Proofs.Server.Eviction
import PageServer.Proofs.Server.Exclusion
import PageServer.Proofs.Server.Handover
import PageServer.Proofs.Server.Ownership
import PageServer.Proofs.Server.Population
import PageServer.Proofs.Server.Schedule
import PageServer.Proofs.Server.Slots
import PageServer.Proofs.Server.System
import PageServer.Proofs.Server.Timekeeping
import PageServer.Proofs.Server.Views
import PageServer.Proofs.Text.Encoding
import PageServer.Proofs.Timer.Operations
import PageServer.Proofs.Timer.Refinement
import PageServer.Proofs.Timer.Registry
import PageServer.Proofs.Timer.Representation
import PageServer.Proofs.Timer.Sift
import PageServer.Proofs.Workers.Closing
import PageServer.Proofs.Workers.Crew
import PageServer.Proofs.Workers.Execution
import PageServer.Proofs.Workers.Operations
import PageServer.Proofs.Workers.Settling
import PageServer.Proofs.Workers.Tally
import PageServer.Server.Poller
import PageServer.Server.Reactor
import PageServer.Server.Signals
import PageServer.Server.Slots
import PageServer.Server.Start
import PageServer.Server.Traffic
import PageServer.Site.Form
import PageServer.Site.Page
import PageServer.Text.Alphabetic
import PageServer.Text.Alphanumeric
import PageServer.Text.Ascii
import PageServer.Text.Decimal
import PageServer.Text.Hidden
import PageServer.Text.Ranges
import PageServer.Text.Shown
import PageServer.Text.Space
import PageServer.Text.Utf8
import PageServer.Timer.Heap
import PageServer.Workers.Basic
import PageServer.Workers.Run
import PageServer.Proofs.Accounts.Rows
import PageServer.Proofs.Accounts.Settling
import PageServer.Proofs.Accounts.Registration
import PageServer.Proofs.Connection.Secrecy
import PageServer.Proofs.Accounts.Drafting
import PageServer.Proofs.Accounts.Saving
import PageServer.Proofs.Connection.Credentials
import PageServer.Proofs.Connection.Attachment
import PageServer.Proofs.Connection.Pipelining
import PageServer.Proofs.Connection.Rereading
import PageServer.Proofs.Connection.Serving
import PageServer.Proofs.Connection.Talks
import PageServer.Proofs.Server.Reuse
import PageServer.Proofs.Site.Pages
import PageServer.Proofs.Timer.Sweep
import PageServer.Proofs.Text.Bytewise
import PageServer.Proofs.Http.RequestLine
import PageServer.Proofs.Disk.Descent
import PageServer.Proofs.Connection.Confinement
import PageServer.Proofs.Connection.Capacity
import PageServer.Proofs.Connection.Handling
import PageServer.Proofs.Http.Buffering
import PageServer.Proofs.Http.HeaderLine
import PageServer.Proofs.Http.HeaderBlock
import PageServer.Proofs.Metrics.Percentiles
import PageServer.Proofs.Metrics.History
import PageServer.Proofs.Timer.Repositioning
import PageServer.Proofs.Config.Limits
import PageServer.Proofs.Http.Rescanning
import PageServer.Proofs.Program.Startup
