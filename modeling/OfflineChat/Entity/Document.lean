import OfflineChat.Entity.Channel
import OfflineChat.Entity.Message
import OfflineChat.Json.Record

/-! # Entities as documents

The document form of every entity: a record whose fields are written in a fixed order. Each type has
`toJson` and a reader `ofDraft?` within a budget of nesting. An upload state is a record with a tag;
a status is a name. -/

set_option autoImplicit false

namespace OfflineChat

open Draft (required optional text? bool? int32? int64? instant? texts? extraData? list? record?
  named? fieldOf? DistinctNames value? values? fieldValues?)

/-! ## Status -/

/-- A status as a document writes it. -/
def SyncStatus.toJson (s : SyncStatus) : Json := .string s.name

/-- Reads a status: its name, or an object with the name as its one key and null as its value. -/
def SyncStatus.ofDraft? (depth : Nat) : Draft → Option SyncStatus
  | .string s => s.bind ofName?
  | .object [(some name, .null)] => if depth = 0 then none else ofName? name
  | _ => none

/-! ## Channel identities -/

namespace ChannelId

/-- A channel identity as a document writes it. -/
def toJson (c : ChannelId) : Json :=
  .object [("channel_type", .string c.type), ("channel_id", .string c.id)]

/-- Reads a channel identity. -/
def ofDraft? (depth : Nat) (d : Draft) : Option ChannelId :=
  if depth = 0 then none else
  match record? ["channel_type", "channel_id"] d with
  | some [type, id] => do
      return { type := ← required text? type, id := ← required text? id }
  | _ => none

end ChannelId

/-! ## Users -/

namespace User

/-- The fields of a user as a document writes them. -/
def toJson (u : User) : Json :=
  .object
    [ ("id", .string u.id),
      ("role", .string u.role),
      ("name", .ofOption .string u.name),
      ("image", .ofOption .string u.image),
      ("created_at", .ofOption .ofInstant u.createdAt),
      ("updated_at", .ofOption .ofInstant u.updatedAt),
      ("last_active", .ofOption .ofInstant u.lastActive),
      ("invisible", .bool u.invisible),
      ("banned", .bool u.banned),
      ("mutes", .ofTexts u.mutes),
      ("extra_data", u.extraData.toJson) ]

/-- The names of the fields of a user. -/
def fieldNames : List String :=
  ["id", "role", "name", "image", "created_at", "updated_at", "last_active", "invisible", "banned",
    "mutes", "extra_data"]

/-- Reads a user. -/
def ofDraft? : Nat → Draft → Option User
  | 0, _ => none
  | depth + 1, d =>
      match record? fieldNames d with
      | some [id, role, name, image, createdAt, updatedAt, lastActive, invisible, banned, mutes,
          extraData] => do
          return {
            id := ← required text? id
            role := ← required text? role
            name := ← optional text? name
            image := ← optional text? image
            createdAt := ← optional instant? createdAt
            updatedAt := ← optional instant? updatedAt
            lastActive := ← optional instant? lastActive
            invisible := ← required bool? invisible
            banned := ← required bool? banned
            mutes := ← required (texts? depth) mutes
            extraData := ← required (extraData? depth) extraData }
      | _ => none

end User

/-! ## Channels -/

namespace Channel

/-- The fields of a channel as a document writes them. -/
def toJson (c : Channel) : Json :=
  .object
    [ ("cid", .string c.cid),
      ("channel_type", .string c.type),
      ("channel_id", .string c.id),
      ("cooldown", .int c.cooldown.toInt),
      ("frozen", .bool c.frozen),
      ("hidden", .ofOption .bool c.hidden),
      ("created_by_user_id", .string c.createdByUserId),
      ("member_count", .int c.memberCount.toInt),
      ("last_message_id", .ofOption .string c.lastMessageId),
      ("last_message_at", .ofOption .ofInstant c.lastMessageAt),
      ("created_at", .ofOption .ofInstant c.createdAt),
      ("updated_at", .ofOption .ofInstant c.updatedAt),
      ("deleted_at", .ofOption .ofInstant c.deletedAt),
      ("team", .string c.team),
      ("extra_data", c.extraData.toJson),
      ("sync_status", c.syncStatus.toJson) ]

/-- The names of the fields of a channel. -/
def fieldNames : List String :=
  ["cid", "channel_type", "channel_id", "cooldown", "frozen", "hidden", "created_by_user_id",
    "member_count", "last_message_id", "last_message_at", "created_at", "updated_at", "deleted_at",
    "team", "extra_data", "sync_status"]

/-- Reads a channel. -/
def ofDraft? : Nat → Draft → Option Channel
  | 0, _ => none
  | depth + 1, d =>
      match record? fieldNames d with
      | some [cid, type, id, cooldown, frozen, hidden, createdByUserId, memberCount, lastMessageId,
          lastMessageAt, createdAt, updatedAt, deletedAt, team, extraData, syncStatus] => do
          return {
            cid := ← required text? cid
            type := ← required text? type
            id := ← required text? id
            cooldown := ← required int32? cooldown
            frozen := ← required bool? frozen
            hidden := ← optional bool? hidden
            createdByUserId := ← required text? createdByUserId
            memberCount := ← required int32? memberCount
            lastMessageId := ← optional text? lastMessageId
            lastMessageAt := ← optional instant? lastMessageAt
            createdAt := ← optional instant? createdAt
            updatedAt := ← optional instant? updatedAt
            deletedAt := ← optional instant? deletedAt
            team := ← required text? team
            extraData := ← required (extraData? depth) extraData
            syncStatus := ← required (SyncStatus.ofDraft? depth) syncStatus }
      | _ => none

end Channel

/-! ## Attachments -/

namespace UploadState

/-- An upload state as a document writes it: its tag, then its own fields. -/
def toJson : UploadState → Json
  | idle => .object [("state", .string "idle")]
  | inProgress bytesUploaded totalBytes =>
      .object
        [ ("state", .string "in_progress"),
          ("bytes_uploaded", .int bytesUploaded.toInt),
          ("total_bytes", .int totalBytes.toInt) ]
  | success => .object [("state", .string "success")]
  | failed reason => .object [("state", .string "failed"), ("reason", .string reason)]

/-- The state with this tag, whose other fields are given. A state without fields takes any object
and an empty array. -/
def ofTag? (tag : String) (fields : Draft) : Option UploadState :=
  if tag = "idle" then if bare fields then some idle else none
  else if tag = "in_progress" then
    match record? ["bytes_uploaded", "total_bytes"] fields with
    | some [bytesUploaded, totalBytes] => do
        return inProgress (← required int64? bytesUploaded) (← required int64? totalBytes)
    | _ => none
  else if tag = "success" then if bare fields then some success else none
  else if tag = "failed" then
    match record? ["reason"] fields with
    | some [reason] => do return failed (← required text? reason)
    | _ => none
  else none
where
  bare : Draft → Bool
    | .array items => items.isEmpty
    | _ => true

/-- Reads an upload state: an object with one field `state`, or an array that starts with the tag.
All other fields must be readable values, even those that are not used. -/
def ofDraft? : Nat → Draft → Option UploadState
  | 0, _ => none
  | depth + 1, .array (tag :: items) => do
      let tag ← tag.text?
      let _ ← values? depth items
      ofTag? tag (.array items)
  | depth + 1, .object fields => do
      let named ← named? fields
      if DistinctNames ["state"] named then
        let tag ← (fieldOf? "state" named).bind text?
        let others := fields.filter fun f => f.1 != some "state"
        let _ ← fieldValues? depth others
        ofTag? tag (.object others)
      else none
  | _ + 1, _ => none

end UploadState

namespace Attachment

/-- The fields of an attachment as a document writes them. -/
def toJson (a : Attachment) : Json :=
  .object
    [ ("title", .ofOption .string a.title),
      ("mime_type", .ofOption .string a.mimeType),
      ("file_size", .int a.fileSize.toInt),
      ("url", .ofOption .string a.url),
      ("upload_state", a.uploadState.toJson),
      ("extra_data", a.extraData.toJson) ]

/-- The names of the fields of an attachment. -/
def fieldNames : List String :=
  ["title", "mime_type", "file_size", "url", "upload_state", "extra_data"]

/-- Reads an attachment. -/
def ofDraft? : Nat → Draft → Option Attachment
  | 0, _ => none
  | depth + 1, d =>
      match record? fieldNames d with
      | some [title, mimeType, fileSize, url, uploadState, extraData] => do
          return {
            title := ← optional text? title
            mimeType := ← optional text? mimeType
            fileSize := ← required int64? fileSize
            url := ← optional text? url
            uploadState := ← required (UploadState.ofDraft? depth) uploadState
            extraData := ← required (extraData? depth) extraData }
      | _ => none

end Attachment

/-! ## Messages -/

namespace Message

/-- The fields of a message as a document writes them. -/
def toJson (m : Message) : Json :=
  .object
    [ ("id", .string m.id),
      ("cid", .string m.cid),
      ("user", m.user.toJson),
      ("text", .string m.text),
      ("attachments", .array (m.attachments.map Attachment.toJson)),
      ("mentioned_users", .array (m.mentionedUsers.map User.toJson)),
      ("created_at", .ofOption .ofInstant m.createdAt),
      ("created_locally_at", .ofOption .ofInstant m.createdLocallyAt),
      ("updated_at", .ofOption .ofInstant m.updatedAt),
      ("updated_locally_at", .ofOption .ofInstant m.updatedLocallyAt),
      ("deleted_at", .ofOption .ofInstant m.deletedAt),
      ("extra_data", m.extraData.toJson),
      ("sync_status", m.syncStatus.toJson),
      ("sync_description", .ofOption .string m.syncDescription) ]

/-- The names of the fields of a message. -/
def fieldNames : List String :=
  ["id", "cid", "user", "text", "attachments", "mentioned_users", "created_at",
    "created_locally_at", "updated_at", "updated_locally_at", "deleted_at", "extra_data",
    "sync_status", "sync_description"]

/-- Reads a message. -/
def ofDraft? : Nat → Draft → Option Message
  | 0, _ => none
  | depth + 1, d =>
      match record? fieldNames d with
      | some [id, cid, user, text, attachments, mentionedUsers, createdAt, createdLocallyAt,
          updatedAt, updatedLocallyAt, deletedAt, extraData, syncStatus, syncDescription] => do
          return {
            id := ← required text? id
            cid := ← required text? cid
            user := ← required (User.ofDraft? depth) user
            text := ← required text? text
            attachments := ← required (list? Attachment.ofDraft? depth) attachments
            mentionedUsers := ← required (list? User.ofDraft? depth) mentionedUsers
            createdAt := ← optional instant? createdAt
            createdLocallyAt := ← optional instant? createdLocallyAt
            updatedAt := ← optional instant? updatedAt
            updatedLocallyAt := ← optional instant? updatedLocallyAt
            deletedAt := ← optional instant? deletedAt
            extraData := ← required (extraData? depth) extraData
            syncStatus := ← required (SyncStatus.ofDraft? depth) syncStatus
            syncDescription := ← optional text? syncDescription }
      | _ => none

end Message

/-- Reads a whole text with one of these readers. -/
def readDocument? {α : Type} (ofDraft? : Nat → Draft → Option α) (text : String) : Option α :=
  (Draft.parse? text.toList).bind (ofDraft? Draft.maxDepth)

end OfflineChat
