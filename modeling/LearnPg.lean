import LearnPg.Api.Addressing
import LearnPg.Api.Creation
import LearnPg.Api.Handouts
import LearnPg.Api.HostCreation
import LearnPg.Api.Leaks
import LearnPg.Api.Lookups
import LearnPg.Api.Passwords
import LearnPg.Api.Resending
import LearnPg.Api.TaskLifecycle
import LearnPg.Api.TaskLists
import LearnPg.Api.TelemetryBatches
import LearnPg.Api.XidRange
import LearnPg.Background.Reporter
import LearnPg.Background.Secrets
import LearnPg.Basis.Paths
import LearnPg.Clog.SegmentFile
import LearnPg.Clog.Statistics
import LearnPg.Clog.Subtrans
import LearnPg.Collector.Agreement
import LearnPg.Collector.EventWire
import LearnPg.Collector.Overflow
import LearnPg.Collector.Polling
import LearnPg.Collector.WalAttribution
import LearnPg.Collector.XactPairs
import LearnPg.Connection.KeywordDsn
import LearnPg.Connection.Routing
import LearnPg.Connection.Rows
import LearnPg.Frontend.Autosave
import LearnPg.Frontend.Backoff
import LearnPg.Frontend.FirstLoad
import LearnPg.Frontend.Links
import LearnPg.Frontend.LockGraph
import LearnPg.Frontend.Preview
import LearnPg.Frontend.Sockets
import LearnPg.Http.Mux
import LearnPg.Http.Recorded
import LearnPg.Http.RouteLabels
import LearnPg.Provision.Names
import LearnPg.Provision.Ports
import LearnPg.RateLimit.RetryAfter
import LearnPg.Telemetry.Fingerprint
import LearnPg.Telemetry.Snapshots
import LearnPg.Telemetry.Top
import LearnPg.Wal.Contiguity
import LearnPg.Wal.Lsn
import LearnPg.Wal.RefLayout
import LearnPg.Wal.Safety
import LearnPg.Wal.Tail
import LearnPg.Workspace.KeyText
import LearnPg.Workspace.Serial
import LearnPg.Workspace.WrongKey
import LearnPg.Ws.Writer
import LearnPg.Basis.Interpolation
import LearnPg.Provision.Compose
import LearnPg.Basis.Json
import LearnPg.Basis.JsonTypes
import LearnPg.Workspace.FileText
import LearnPg.Api.TaskFile
import LearnPg.Basis.CycleReports
import LearnPg.Frontend.LockCycles
import LearnPg.Basis.Grouping
import LearnPg.Frontend.EventViews
import LearnPg.Collector.BufferPins
import LearnPg.Collector.Sender
import LearnPg.Frontend.EventStore
import LearnPg.Basis.Lines
import LearnPg.Wal.HexDump
import LearnPg.Frontend.ApiClient
import LearnPg.Frontend.ErrorReporter
import LearnPg.Provision.Allocation
import LearnPg.Basis.Merging
import LearnPg.Pipeline.System
import LearnPg.Basis.CompactJson
import LearnPg.Basis.Slots
import LearnPg.Basis.Tickets
import LearnPg.Collector.EventText
import LearnPg.Collector.Kernel
import LearnPg.Collector.RingBuffer
import LearnPg.Collector.Xids
import LearnPg.Frontend.Visualization
import LearnPg.Pipeline.Delivery
import LearnPg.Pipeline.Lossless
import LearnPg.Pipeline.Origins
import LearnPg.Pipeline.Texts
import LearnPg.Pipeline.Views
import LearnPg.RateLimit.Concurrent
import LearnPg.Api.ReportDecoding
import LearnPg.Pipeline.Reports
