import OfflineChat.Json.Basic
import OfflineChat.Keyed
import OfflineChat.Sync.Status
import OfflineChat.Time.Instant

/-! # Channels

A conversation and its identity, which joins a type and an id by a colon. Main definitions:
`ChannelId`, `Channel` and `Channel.new`. -/

set_option autoImplicit false

namespace OfflineChat

/-- The identity of a channel. -/
structure ChannelId where
  type : String
  id : String
  deriving DecidableEq

/-- The text of an identity, the key of the channel. -/
def ChannelId.text (c : ChannelId) : String := c.type ++ ":" ++ c.id

/-- A conversation channel. -/
structure Channel where
  cid : String
  type : String
  id : String
  /-- Seconds between two messages of a member. -/
  cooldown : Int32
  frozen : Bool
  hidden : Option Bool
  createdByUserId : String
  memberCount : Int32
  lastMessageId : Option String
  lastMessageAt : Option Instant
  createdAt : Option Instant
  updatedAt : Option Instant
  deletedAt : Option Instant
  team : String
  extraData : ExtraData
  syncStatus : SyncStatus

instance : Keyed Channel := ⟨Channel.cid⟩

@[simp] theorem key_channel (c : Channel) : key c = c.cid := rfl

/-- A channel of which only type and id are known. -/
def Channel.new (type id : String) : Channel where
  cid := ChannelId.text ⟨type, id⟩
  type := type
  id := id
  cooldown := 0
  frozen := false
  hidden := none
  createdByUserId := ""
  memberCount := 0
  lastMessageId := none
  lastMessageAt := none
  createdAt := none
  updatedAt := none
  deletedAt := none
  team := ""
  extraData := .empty
  syncStatus := .completed

end OfflineChat
