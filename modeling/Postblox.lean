import Postblox.Lib.Machine
import Postblox.Mcp.GateSpelling
import Postblox.Mcp.Bridge
import Postblox.Mcp.BridgeSteps
import Postblox.Mcp.BridgeInvariant
import Postblox.Mcp.BridgeSafety
import Postblox.Mcp.BridgeRuns
import Postblox.Imap.Client
import Postblox.Lib.Program
import Postblox.Lib.UniqueIndex
import Postblox.Mail.Threading
import Postblox.Db.Tables
import Postblox.Sync.Commands
import Postblox.Attachments
import Postblox.Sync.Reconciler
import Postblox.Sync.Effects
import Postblox.Sync.Ingest
import Postblox.Sync.Drain
import Postblox.Sync.Call
import Postblox.Lib.Ranges
import Postblox.Sync.Windows
import Postblox.Sync.HighWater
import Postblox.Sync.LaterMail
import Postblox.Sync.PartialFetch
import Postblox.Sync.Validity
import Postblox.Daemon.MessageOps
import Postblox.Daemon.UidIdentity
import Postblox.Sync.Files
import Postblox.Sync.Clashes
import Postblox.Sync.CleanCalls
import Postblox.Sync.Complete
import Postblox.Sync.Retry
import Postblox.Lib.Ranking
import Postblox.Tui.Approvals
import Postblox.Db.SqlQuery
import Postblox.Mcp.Confinement
import Postblox.Daemon.Decoders
import Postblox.Tui.Requests
import Postblox.Tui.Agreement
import Postblox.Daemon.Drafts
import Postblox.Daemon.DraftRuns
import Postblox.Daemon.SendOnce
import Postblox.Daemon.OneVersion
import Postblox.Mcp.ApprovedContent
import Postblox.Sync.Aggregates
import Postblox.Daemon.ThreadAggregates
import Postblox.Lib.Paired
import Postblox.Sync.Passes
import Postblox.Sync.Batching
import Postblox.Lib.Interleave
import Postblox.Sync.Concurrent
import Postblox.Sync.SideBySide
import Postblox.Sync.TwoCalls
import Postblox.Mcp.ToolDecoding
import Postblox.Lib.Segments
import Postblox.Mcp.LineFraming
import Postblox.Ipc.Protocol
import Postblox.Ipc.Wire
import Postblox.Mcp.ToolList
import Postblox.Mcp.JsonRpc
import Postblox.Mcp.Session
import Postblox.Mcp.SessionRuns
import Postblox.Ipc.Client
import Postblox.Daemon.Op
import Postblox.Ipc.ClientProgress
import Postblox.Lib.Correlation
import Postblox.Ipc.Connection
import Postblox.Ipc.ConnectionSteps
import Postblox.Ipc.Matching
import Postblox.Ipc.Answers
import Postblox.Daemon.Secrets
import Postblox.Lib.Linearization
import Postblox.Sync.Manager
import Postblox.Secrets.File
import Postblox.Ipc.JsonText
import Postblox.Secrets.FileRuns
import Postblox.Daemon.Fetch
import Postblox.Daemon.AnswerSizes
import Postblox.Daemon.FrameLimit
import Postblox.Db.Cascades
import Postblox.Lib.MirroredIndex
import Postblox.Db.Ownership
import Postblox.Db.SearchIndex
import Postblox.Sync.OwnMail
import Postblox.Daemon.AccountIsolation
import Postblox.Utf8
import Postblox.Lib.Delimited
import Postblox.Mail.Base64
import Postblox.Mail.Mime
import Postblox.Lib.Strip
import Postblox.Mail.Text
import Postblox.Mail.Parser
import Postblox.Mail.Reply
import Postblox.Mail.ReplyAll
import Postblox.Mail.Subjects
import Postblox.Mail.StableSubjects
import Postblox.Lib.Lines
import Postblox.Mail.ReplyExtract
import Postblox.Mail.ExtractTwice
import Postblox.Mail.OwnQuote
import Postblox.Mail.ReplyChain
import Postblox.Daemon.Replies
import Postblox.Mail.Builder
import Postblox.Mail.HeaderBlocks
import Postblox.Mail.MimeTree
import Postblox.Mail.MimeRoundTrip
import Postblox.Mail.ReplyHeaders
import Postblox.Daemon.Refetch
import Postblox.Daemon.StoredAttachments
import Postblox.Mcp.ApprovalNotices
import Postblox.Lib.Grouping
import Postblox.Lib.ByteText
import Postblox.Tui.Conversations
import Postblox.Tui.FolderCache
import Postblox.Tui.LineCache
import Postblox.Tui.Composer
import Postblox.Tui.State
import Postblox.Tui.ComposerKeys
import Postblox.Tui.TypedText
import Postblox.Tui.NewestMessage
import Postblox.Tui.Rows
import Postblox.Tui.FlagCopies
import Postblox.Tui.FlagRuns
import Postblox.Tui.Refresh
import Postblox.Mail.ThreadAssignment
import Postblox.Mcp.GateSemantics
import Postblox.AttachmentPaths
import Postblox.Lib.Utf8Prefix
import Postblox.AttachmentPreview
import Postblox.Lib.Slots
import Postblox.Lib.Packing
import Postblox.Daemon.ForwardBatch
import Postblox.Tui.ForwardBatches
import Postblox.Tui.ForwardFrames
import Postblox.Mail.PartParameters
import Postblox.Daemon.PartialUpdates
import Postblox.Daemon.DraftFiles
import Postblox.Daemon.DraftRows
import Postblox.Daemon.DraftCreation
import Postblox.Daemon.DraftLimits
import Postblox.Daemon.WholeDrafts
import Postblox.Daemon.AttachmentOrder
import Postblox.Lib.LinePlaces
import Postblox.Lib.PartitionPoint
import Postblox.Tui.LineLookups
import Postblox.Lib.TwoSides
import Postblox.Tui.PlainEditor
import Postblox.Tui.ComposerEditing
import Postblox.Tui.DetailText
import Postblox.Tui.UndoRemoval
import Postblox.Tui.ThreadPartition
import Postblox.Lib.Recency
import Postblox.Tui.CacheHistory
import Postblox.Lib.EditDistance
import Postblox.Tui.CommandNames
import Postblox.Lib.LikePatterns
import Postblox.Lib.Fts5Tokens
import Postblox.Db.SearchTerms
import Postblox.Lib.PercentEncoding
import Postblox.Oauth.Google
import Postblox.Oauth.AuthorizationUrl
import Postblox.Oauth.Tokens
import Postblox.Daemon.Credentials
import Postblox.Tui.Cursor
import Postblox.Tui.SearchHits
import Postblox.Tui.AddressLines
import Postblox.Tui.DraftTempFiles
import Postblox.Tui.ReopenedDraft
import Postblox.Db.ResponseSize
import Postblox.Tui.MailStore
import Postblox.Tui.CacheWrites
import Postblox.Tui.CacheTrust
import Postblox.Tui.Announcements
import Postblox.Tui.CacheSessions
import Postblox.Tui.CacheRuns
import Postblox.Sync.Worker
import Postblox.Sync.WorkerRuns
import Postblox.Lib.Broadcast
import Postblox.Ipc.Events
import Postblox.Ipc.EventDelivery
import Postblox.Lib.Lists
import Postblox.Tui.Commands
import Postblox.Tui.ComposerSessions
import Postblox.Db.AuditLog
import Postblox.Tui.Toasts
import Postblox.Tui.SyncStatus
