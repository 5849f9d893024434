import PrivchatSdk.Lib.Run
import PrivchatSdk.Lib.Interleave
import PrivchatSdk.Lib.Inodes
import PrivchatSdk.Lib.Table
import PrivchatSdk.Lib.Exec
import PrivchatSdk.Lib.UpdateOrder
import PrivchatSdk.Lib.CursorScan
import PrivchatSdk.Lib.Repoint
import PrivchatSdk.Lib.LogPages
import PrivchatSdk.Lib.Totals
import PrivchatSdk.Lib.KeyedStore
import PrivchatSdk.Lib.BigEndian
import PrivchatSdk.Lib.SortedWindow
import PrivchatSdk.Lib.GreedyPick
import PrivchatSdk.Lib.TextOffsets
import PrivchatSdk.Lib.RecentlyUsed
import PrivchatSdk.Lib.SingleFlight
import PrivchatSdk.Lib.RequestLog
import PrivchatSdk.Lib.LatestWrite
import PrivchatSdk.Store.Rows
import PrivchatSdk.Store.Message
import PrivchatSdk.Store.Upsert
import PrivchatSdk.Store.Outbox
import PrivchatSdk.Store.Change
import PrivchatSdk.Store.Attached
import PrivchatSdk.DuplicateMerge
import PrivchatSdk.SealedCache
import PrivchatSdk.SelfSend
import PrivchatSdk.Outbound
import PrivchatSdk.AttemptIdentity
import PrivchatSdk.OutboxStatus
import PrivchatSdk.Tombstone
import PrivchatSdk.ReceivePipeline
import PrivchatSdk.ReceiveKeys
import PrivchatSdk.SyncCoordinator
import PrivchatSdk.SessionMemory
import PrivchatSdk.MessageContent
import PrivchatSdk.EditHistory
import PrivchatSdk.SyncPayload
import PrivchatSdk.CanonicalInbound
import PrivchatSdk.SendTime
import PrivchatSdk.MessageItems
import PrivchatSdk.AttachedLinks
import PrivchatSdk.ReadCursor
import PrivchatSdk.ChannelList
import PrivchatSdk.ChannelFrame
import PrivchatSdk.ChannelEvents
import PrivchatSdk.TotalUnread
import PrivchatSdk.OutboundDrain
import PrivchatSdk.EntitySync
import PrivchatSdk.EntityOrder
import PrivchatSdk.SendText
import PrivchatSdk.MediaStore
import PrivchatSdk.OutboundFile
import PrivchatSdk.AttachmentFrame
import PrivchatSdk.AttachmentThumbnail
import PrivchatSdk.AttachmentAttempt
import PrivchatSdk.AttachmentRetry
import PrivchatSdk.EventHistory
import PrivchatSdk.ResumableUpload
import PrivchatSdk.UploadGaps
import PrivchatSdk.TimelineCache
import PrivchatSdk.ProjectionRepair
import PrivchatSdk.OutboxMigration
import PrivchatSdk.LegacyQueue
import PrivchatSdk.TimelineFrame
import PrivchatSdk.InstallationId
import PrivchatSdk.DownloadManager
import PrivchatSdk.AvatarCache
import PrivchatSdk.RunDownload
import PrivchatSdk.ChannelDifference
import PrivchatSdk.ChannelRepair
import PrivchatSdk.AntiEntropy
import PrivchatSdk.ConnectionState
import PrivchatSdk.SessionWork
import PrivchatSdk.SessionSync
import PrivchatSdk.OwnerChange
import PrivchatSdk.SyncBranches
import PrivchatSdk.InboundFrames
import PrivchatSdk.MessagePlaces
import PrivchatSdk.TimelineItems
import PrivchatSdk.TimelineAnswers
import PrivchatSdk.CommitCoverage
import PrivchatSdk.CommitRuns
import PrivchatSdk.MessageViews
import PrivchatSdk.TimelineOrder
import PrivchatSdk.MutationItems
import PrivchatSdk.TimelineConvergence
import PrivchatSdk.SettledMessages
import PrivchatSdk.SettledSteps
import PrivchatSdk.ArrivalOrder
import PrivchatSdk.UploadSessions
import PrivchatSdk.PendingMutations
import PrivchatSdk.MessageWindow
import PrivchatSdk.WriteAtomicity
import PrivchatSdk.PrimaryFile
import PrivchatSdk.MessageEntities
import PrivchatSdk.CacheBudget
import PrivchatSdk.RepairQueue
import PrivchatSdk.StorageActor
import PrivchatSdk.AccountVault
import PrivchatSdk.AccountRegistry
import PrivchatSdk.VaultRuns
import PrivchatSdk.LocalAccounts
import PrivchatSdk.VaultFaults
import PrivchatSdk.VaultSurvival
import PrivchatSdk.ConnectionLoop
import PrivchatSdk.ConnectionMoves
import PrivchatSdk.ConnectionSpecs
import PrivchatSdk.ReconnectTimer
import PrivchatSdk.ReconnectPace
import PrivchatSdk.ConnectionReports
import PrivchatSdk.ConnectionWiring
