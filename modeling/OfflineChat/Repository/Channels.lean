import OfflineChat.Entity.Message
import OfflineChat.Repository.Replica

/-! # The channels of a replica

Channels are written through the cache and looked up there first; queries by status always go to the
database. Main definitions: `Channels.insert`, `Channels.select`, `Channels.selectMany`,
`Channels.byStatus` and `Channels.updateLastMessage`, which keeps the newest message of a channel.
-/

set_option autoImplicit false

namespace OfflineChat

/-- A message of this time replaces the last message of the channel. -/
def Channel.isOvertakenAt (c : Channel) (time : Instant) : Bool :=
  c.lastMessageAt.all fun current => current ≤ time

/-- The channel with a new last message. -/
def Channel.withLastMessage (c : Channel) (id : String) (time : Instant) : Channel :=
  { c with lastMessageId := some id, lastMessageAt := some time }

namespace Channels

/-- Files channels in the cache and then writes them; nothing happens without channels. -/
def insert (channels : List Channel) : Action Replica Unit := do
  if channels.isEmpty then return ()
  .modify fun r => { r with channels := r.channels.putAll channels }
  Replica.write (.putChannels (channels.map Channel.cid)) fun db => db.putChannels channels

/-- Files and writes one channel. -/
def insertChannel (channel : Channel) : Action Replica Unit := insert [channel]

/-- The channel with this key: from the cache, else from the database. -/
def select (cid : String) : Action Replica (Option Channel) := do
  let cached ← .update fun r =>
    let (channel, channels) := r.channels.get? cid
    (channel, { r with channels })
  match cached with
  | some channel => return some channel
  | none => Replica.read (.channel cid) fun db => db.channel? cid

/-- The channels with these keys: the cached ones, then the stored ones among the others. -/
def selectMany (cids : List String) : Action Replica (List Channel) := do
  let (hits, misses) ← .update fun r =>
    let (found, channels) := r.channels.getAll (firstOfKeys cids)
    (found, { r with channels })
  if misses.isEmpty then return hits
  let stored ← Replica.read (.channels misses) fun db => db.channelsOf misses
  return hits ++ stored

/-- The first `limit` stored channels of a status above the key `after`. -/
def byStatus (status : SyncStatus) (after : Option String) (limit : Nat) :
    Action Replica (List Channel) :=
  Replica.read (.channelsByStatus status after limit) fun db =>
    db.channelsByStatus status after limit

/-- The keys of all stored channels of a status. -/
def keysByStatus (status : SyncStatus) : Action Replica (List String) :=
  Replica.read (.channelKeysByStatus status) fun db => .ok (db.channelKeysByStatus status)

/-- Makes a message the last one of its channel, unless the channel is unknown, the message has no
time, or the channel has a newer one. Tells whether the channel was written. -/
def updateLastMessage (cid : String) (message : Message) : Action Replica Bool := do
  match ← select cid, message.effectiveCreatedAt with
  | some channel, some time =>
      if channel.isOvertakenAt time then
        insertChannel (channel.withLastMessage message.id time)
        return true
      else return false
  | _, _ => return false

/-- Removes all channels from cache and database. -/
def clear : Action Replica Nat := do
  .modify fun r => { r with channels := r.channels.clear }
  Replica.delete .deleteChannels Database.deleteChannels

end Channels

end OfflineChat
