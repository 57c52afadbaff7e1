import OfflineChat.Proofs.Entity.Partial
import OfflineChat.Main
import OfflineChat.Sync.AttachmentSend
import OfflineChat.Proofs.Store.Selection
import OfflineChat.Proofs.Sync.Backing
import OfflineChat.Proofs.Text.ByteOrder
import OfflineChat.Proofs.Sync.Progress
import OfflineChat.Proofs.Repository.Hydration
import OfflineChat.Proofs.Sync.Repositories
import OfflineChat.Proofs.Sync.CompletePass
import OfflineChat.Proofs.Sync.ChannelsFirst
import OfflineChat.Proofs.Sync.Exclusion
import OfflineChat.Proofs.Repository.Operations
import OfflineChat.Proofs.Sync.Course
import OfflineChat.Proofs.Sync.Runs
import OfflineChat.Proofs.Sync.LocalEdits
import OfflineChat.Proofs.Sync.Wipe
import OfflineChat.Proofs.Sync.Terminal
import OfflineChat.Proofs.Json.Parse
import OfflineChat.Proofs.Time.Stored
import OfflineChat.Proofs.Entity.Document
import OfflineChat.Proofs.Store.ReadBack
import OfflineChat.Proofs.Sync.Interruption
import OfflineChat.Proofs.Repository.Caching
import OfflineChat.Proofs.Repository.Shelf
import OfflineChat.Proofs.Repository.Shown
import OfflineChat.Proofs.Repository.Effects
import OfflineChat.Proofs.Repository.Lawful
import OfflineChat.Proofs.Repository.Transparency
import OfflineChat.Proofs.Repository.LookUps
import OfflineChat.Proofs.Repository.MessageSnapshots
import OfflineChat.Proofs.Repository.CompletedReads
import OfflineChat.Proofs.Repository.FailedInsert
import OfflineChat.Proofs.Json.Nesting
import OfflineChat.Proofs.Store.FileImage
import OfflineChat.Proofs.Store.Migrations
import OfflineChat.Proofs.Store.KeyedMaps
import OfflineChat.Proofs.Store.Rewriting
import OfflineChat.Proofs.Time.Loose
import OfflineChat.Proofs.Entity.Rearranged
import OfflineChat.Proofs.Json.Rearranged
import OfflineChat.Proofs.Sync.Starvation
import OfflineChat.Proofs.Repository.SessionUser
import OfflineChat.Proofs.Store.History
import OfflineChat.Proofs.Store.Paging
import OfflineChat.Proofs.Repository.LastMessage
import OfflineChat.Proofs.Tool.RetryAccount
import OfflineChat.Proofs.Config.Variables
import OfflineChat.Proofs.Cache.LeastRecent
import OfflineChat.Proofs.Tool.Listing
import OfflineChat.Proofs.Repository.FailedSend
import OfflineChat.Proofs.Store.TimestampColumn
