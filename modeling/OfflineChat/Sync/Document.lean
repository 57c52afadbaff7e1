import OfflineChat.Json.Basic
import OfflineChat.Repository.Replica
import OfflineChat.Sync.Service

/-! # Reports as documents

The document form of reports, of the published state and of calls to the database. -/

set_option autoImplicit false

namespace OfflineChat

/-- The tally of a retry pass as a document. -/
def RetryReport.toJson (r : RetryReport) : Json :=
  .object
    [ ("pages", .int r.pages),
      ("submitted", .int r.submitted),
      ("completed", .int r.completed),
      ("failed_permanently", .int r.failedPermanently),
      ("still_pending", .int r.stillPending) ]

/-- The report of a sync pass as a document. -/
def SyncReport.toJson (r : SyncReport) : Json :=
  .object [("channels", r.channels.toJson), ("messages", r.messages.toJson)]

/-- The name of a phase. -/
def SyncPhase.name : SyncPhase → String
  | channels => "Channels"
  | messages => "Messages"

/-- The published state as a document. -/
def SyncState.toJson : SyncState → Json
  | idle => .string "Idle"
  | running phase => .object [("Running", .object [("entity", .string phase.name)])]
  | completed report => .object [("Completed", .object [("report", report.toJson)])]
  | failed error => .object [("Failed", .object [("error", .string error)])]

namespace StoreCall

/-- The table that a call is about, and what it does there. -/
def name : StoreCall → String × String
  | putUsers _ => ("users", "insert_many")
  | putUserRecord _ _ => ("users", "insert_record")
  | user _ => ("users", "select")
  | userRecord _ => ("users", "select_record")
  | users _ => ("users", "select_many")
  | deleteUsers => ("users", "delete_all")
  | putChannels _ => ("channels", "insert_many")
  | channel _ => ("channels", "select")
  | channels _ => ("channels", "select_many")
  | channelsByStatus _ _ _ => ("channels", "select_by_sync_status")
  | channelKeysByStatus _ => ("channels", "select_cids_by_sync_status")
  | deleteChannels => ("channels", "delete_all")
  | putMessages _ => ("messages", "insert_many")
  | message _ => ("messages", "select")
  | messages _ => ("messages", "select_many")
  | messagesForChannel _ _ => ("messages", "select_for_channel")
  | messagesByStatus _ _ _ => ("messages", "select_by_sync_status")
  | deleteMessages => ("messages", "delete_all")

/-- The name of a call, with its table. -/
def fullName (c : StoreCall) : String := c.name.1 ++ "." ++ c.name.2

/-- What is asked for, as a document. -/
def argument : StoreCall → Json
  | putUsers keys | users keys | putChannels keys | channels keys | putMessages keys
  | messages keys => .array (keys.map .string)
  | user k | userRecord k | channel k | message k => .string k
  | putUserRecord id realId => .array [.string id, (realId.map Json.string).getD .null]
  | channelsByStatus status after limit | messagesByStatus status after limit =>
      .array [.string status.name, (after.map Json.string).getD .null, .int limit]
  | messagesForChannel cid limit => .array [.string cid, .int limit]
  | channelKeysByStatus status => .string status.name
  | deleteUsers | deleteChannels | deleteMessages => .null

end StoreCall

end OfflineChat
