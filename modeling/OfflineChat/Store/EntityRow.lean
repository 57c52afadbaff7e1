import OfflineChat.Store.Column

/-! # Entities as rows

Which cell of a row holds which field of an entity, and in which order the cells are read: the first
cell that cannot be read decides the failure. Of the users of a message only the ids are held. Main
definitions, in pairs of writer and reader: `UserRecord.toRow` and `Row.userRecord`,
`Channel.toRow` and `Row.channel`, `Message.toRow` and `Row.message`. -/

set_option autoImplicit false

namespace OfflineChat

/-! ## Writing -/

/-- The row of a user. -/
def UserRecord.toRow (r : UserRecord) : Row :=
  let u := r.user
  ⟨[ .text u.id,
     .ofText? r.realId,
     .text u.role,
     .ofText? u.name,
     .ofText? u.image,
     .ofText? (Column.ofInstant? u.createdAt),
     .ofText? (Column.ofInstant? u.updatedAt),
     .ofText? (Column.ofInstant? u.lastActive),
     .ofBool u.invisible,
     .ofBool u.banned,
     .text (Column.ofTexts u.mutes),
     .text (Column.ofExtraData u.extraData) ]⟩

/-- The row of a channel. -/
def Channel.toRow (c : Channel) : Row :=
  ⟨[ .text c.cid,
     .text c.type,
     .text c.id,
     .ofInt32 c.cooldown,
     .ofBool c.frozen,
     .ofBool? c.hidden,
     .text c.createdByUserId,
     .ofInt32 c.memberCount,
     .ofText? c.lastMessageId,
     .ofText? (Column.ofInstant? c.lastMessageAt),
     .ofText? (Column.ofInstant? c.createdAt),
     .ofText? (Column.ofInstant? c.updatedAt),
     .ofText? (Column.ofInstant? c.deletedAt),
     .text c.team,
     .text (Column.ofExtraData c.extraData),
     .integer c.syncStatus.code ]⟩

/-- The row of a message. -/
def Message.toRow (m : Message) : Row :=
  ⟨[ .text m.id,
     .text m.cid,
     .text m.user.id,
     .text m.text,
     .text (Column.ofAttachments m.attachments),
     .text (Column.ofTexts (m.mentionedUsers.map User.id)),
     .ofText? (Column.ofInstant? m.createdAt),
     .ofText? (Column.ofInstant? m.createdLocallyAt),
     .ofText? (Column.ofInstant? m.updatedAt),
     .ofText? (Column.ofInstant? m.updatedLocallyAt),
     .ofText? (Column.ofInstant? m.deletedAt),
     .text (Column.ofExtraData m.extraData),
     .integer m.syncStatus.code,
     .ofText? m.syncDescription ]⟩

@[simp] theorem key_toRow_userRecord (r : UserRecord) : key r.toRow = r.user.id := rfl

@[simp] theorem key_toRow_channel (c : Channel) : key c.toRow = c.cid := rfl

@[simp] theorem key_toRow_message (m : Message) : key m.toRow = m.id := rfl

/-! ## Cells that rows are chosen by -/

namespace Row

/-- The status of a channel. -/
def channelStatus (r : Row) : Cell := r.cell 15

/-- The status of a message. -/
def messageStatus (r : Row) : Cell := r.cell 12

/-- The channel of a message. -/
def messageChannel (r : Row) : Cell := r.cell 1

/-- The time that orders a message: the server's, else the local one. -/
def sentAt (r : Row) : Cell :=
  match r.cell 6 with
  | .null => r.cell 7
  | c => c

end Row

@[simp] theorem channelStatus_toRow (c : Channel) :
    c.toRow.channelStatus = .integer c.syncStatus.code := rfl

@[simp] theorem messageStatus_toRow (m : Message) :
    m.toRow.messageStatus = .integer m.syncStatus.code := rfl

@[simp] theorem messageChannel_toRow (m : Message) : m.toRow.messageChannel = .text m.cid := rfl

@[simp] theorem sentAt_toRow (m : Message) :
    m.toRow.sentAt = .ofText? (Column.ofInstant? m.effectiveCreatedAt) := by
  cases h : m.createdAt <;> simp [Row.sentAt, Message.toRow, Row.cell, Message.effectiveCreatedAt,
    Column.ofInstant?, Cell.ofText?, h]

/-! ## Reading -/

namespace Row

/-- A timestamp. -/
def instant? (r : Row) (index : Nat) (column : String) : Except StoreError (Option Instant) := do
  Column.instant? index (← r.text? index column)

/-- A list of texts. -/
def texts (r : Row) (index : Nat) (column : String) : Except StoreError (List String) := do
  Column.texts index (← r.text? index column)

/-- A list of attachments. -/
def attachments (r : Row) (index : Nat) (column : String) :
    Except StoreError (List Attachment) := do
  Column.attachments index (← r.text? index column)

/-- Further data. -/
def extraData (r : Row) (index : Nat) (column : String) : Except StoreError ExtraData := do
  Column.extraData index (← r.text? index column)

/-- A status. -/
def status (r : Row) (index : Nat) (column : String) : Except StoreError SyncStatus := do
  Column.status index (← r.int32 index column).toInt

/-- The user that a row holds. -/
def userRecord (r : Row) : Except StoreError UserRecord := do
  let id ← r.text 0 "id"
  let role ← r.text 2 "role"
  let name ← r.text? 3 "name"
  let image ← r.text? 4 "image"
  let createdAt ← r.instant? 5 "created_at"
  let updatedAt ← r.instant? 6 "updated_at"
  let lastActive ← r.instant? 7 "last_active"
  let invisible ← r.bool 8 "invisible"
  let banned ← r.bool 9 "banned"
  let mutes ← r.texts 10 "mutes"
  let extraData ← r.extraData 11 "extra_data"
  let realId ← r.text? 1 "original_id"
  return {
    user :=
      { id, role, name, image, createdAt, updatedAt, lastActive, invisible, banned, mutes
        extraData }
    realId }

/-- The channel that a row holds. -/
def channel (r : Row) : Except StoreError Channel := do
  let cid ← r.text 0 "cid"
  let type ← r.text 1 "type"
  let id ← r.text 2 "channel_id"
  let cooldown ← r.int32 3 "cooldown"
  let frozen ← r.bool 4 "frozen"
  let hidden ← r.bool? 5 "hidden"
  let createdByUserId ← r.text 6 "created_by_user_id"
  let memberCount ← r.int32 7 "member_count"
  let lastMessageId ← r.text? 8 "last_message_id"
  let lastMessageAt ← r.instant? 9 "last_message_at"
  let createdAt ← r.instant? 10 "created_at"
  let updatedAt ← r.instant? 11 "updated_at"
  let deletedAt ← r.instant? 12 "deleted_at"
  let team ← r.text 13 "team"
  let extraData ← r.extraData 14 "extra_data"
  let syncStatus ← r.status 15 "sync_status"
  return {
    cid, type, id, cooldown, frozen, hidden, createdByUserId, memberCount, lastMessageId
    lastMessageAt, createdAt, updatedAt, deletedAt, team, extraData, syncStatus }

/-- The message that a row holds, with users of whom only the ids are known. -/
def message (r : Row) : Except StoreError Message := do
  let userId ← r.text 2 "user_id"
  let mentionedIds ← r.texts 5 "mentioned_user_ids"
  let id ← r.text 0 "id"
  let cid ← r.text 1 "cid"
  let text ← r.text 3 "text"
  let attachments ← r.attachments 4 "attachments"
  let createdAt ← r.instant? 6 "created_at"
  let createdLocallyAt ← r.instant? 7 "created_locally_at"
  let updatedAt ← r.instant? 8 "updated_at"
  let updatedLocallyAt ← r.instant? 9 "updated_locally_at"
  let deletedAt ← r.instant? 10 "deleted_at"
  let extraData ← r.extraData 11 "extra_data"
  let syncStatus ← r.status 12 "sync_status"
  let syncDescription ← r.text? 13 "sync_description"
  return {
    id, cid, user := User.new userId, text, attachments
    mentionedUsers := mentionedIds.map User.new
    createdAt, createdLocallyAt, updatedAt, updatedLocallyAt, deletedAt, extraData, syncStatus
    syncDescription }

end Row

end OfflineChat
