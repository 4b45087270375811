import AiSsh.Append
import AiSsh.AppendCapped
import AiSsh.Attribution
import AiSsh.BuildCommand
import AiSsh.CappedRead
import AiSsh.ClosedAt
import AiSsh.Collect
import AiSsh.CommandDrain
import AiSsh.CommandPoll
import AiSsh.CompactOutput
import AiSsh.ConfigSave
import AiSsh.ConnectionSlot
import AiSsh.DaemonCall
import AiSsh.DaemonRecovery
import AiSsh.DaemonSessions
import AiSsh.DatabasePages
import AiSsh.DownloadGuard
import AiSsh.DownloadRaces
import AiSsh.Downloads
import AiSsh.EndedSessions
import AiSsh.Endpoint
import AiSsh.ExecChannel
import AiSsh.FailedStart
import AiSsh.FileWrite
import AiSsh.FinalStatuses
import AiSsh.ForegroundSlot
import AiSsh.ForegroundStatus
import AiSsh.Frames
import AiSsh.Hosts
import AiSsh.IdleReaper
import AiSsh.IfChanged
import AiSsh.InstallHelper
import AiSsh.InstallSafety
import AiSsh.Library.Base64
import AiSsh.Library.Budget
import AiSsh.Library.ByteSource
import AiSsh.Library.Cursor
import AiSsh.Library.Drain
import AiSsh.Library.Exchange
import AiSsh.Library.FileTable
import AiSsh.Library.JsonLines
import AiSsh.Library.JsonPretty
import AiSsh.Library.JsonRead
import AiSsh.Library.JsonSchema
import AiSsh.Library.Ledger
import AiSsh.Library.Locks
import AiSsh.Library.Machine
import AiSsh.Library.Paging
import AiSsh.Library.Pool
import AiSsh.Library.Program
import AiSsh.Library.Script
import AiSsh.Library.ShellWords
import AiSsh.Library.Utf8Cuts
import AiSsh.LineEnds
import AiSsh.LockOrder
import AiSsh.MakeDir
import AiSsh.ManagerLocks
import AiSsh.McpServer
import AiSsh.Observer
import AiSsh.OutputReads
import AiSsh.PageProgress
import AiSsh.Permissions
import AiSsh.PollWarnings
import AiSsh.PrivilegedWrite
import AiSsh.Protocol
import AiSsh.PublicData
import AiSsh.PublicJson
import AiSsh.Recorders
import AiSsh.Recording
import AiSsh.RecordingAccounts
import AiSsh.RecordingLimit
import AiSsh.RemoteTree
import AiSsh.Retention
import AiSsh.SaveAtomic
import AiSsh.ServeClient
import AiSsh.SessionClosed
import AiSsh.SessionLifecycle
import AiSsh.SessionList
import AiSsh.SessionPage
import AiSsh.ShellRead
import AiSsh.ShellReader
import AiSsh.StagedNames
import AiSsh.Storage
import AiSsh.StorageAccounts
import AiSsh.StorageFailures
import AiSsh.StoredRows
import AiSsh.StoredTime
import AiSsh.TextChannel
import AiSsh.TextDecoders
import AiSsh.TextSplits
import AiSsh.TimeParse
import AiSsh.TimedOut
import AiSsh.ToolArguments
import AiSsh.ToolCall
import AiSsh.ToolRequest
import AiSsh.ToolSchemas
import AiSsh.Transcript
import AiSsh.Transfer
import AiSsh.TransferSafety
