import OfflineChat.Repository.Users

/-! # The messages of a replica

Messages are written through the cache or past it, and looked up in the cache first. The database
holds only the ids of their users; a message that is read from it is completed with the users that
the replica knows. Main definitions: `Messages.insert`, `Messages.select`, `Messages.selectMany`,
`Messages.forChannel`, `Messages.byStatus` and `Messages.hydrate`. -/

set_option autoImplicit false

namespace OfflineChat

/-- The ids of author and mentioned users, author first. -/
def Message.userIds (m : Message) : List String := m.user.id :: m.mentionedUsers.map User.id

/-- The message with its users taken from a directory, as far as it has them. -/
def Message.withUsers (directory : Table User) (m : Message) : Message :=
  let known (u : User) : User := (directory.get? u.id).getD u
  { m with user := known m.user, mentionedUsers := m.mentionedUsers.map known }

namespace Messages

/-- Writes messages. They are filed in the cache first, or taken out of it so that the next read
goes to the database. Nothing happens without messages. -/
def insert (messages : List Message) (cached : Bool) : Action Replica Unit := do
  if messages.isEmpty then return ()
  .modify fun r =>
    { r with
      messages :=
        if cached then r.messages.putAll messages
        else r.messages.removeAll (messages.map Message.id) }
  Replica.write (.putMessages (messages.map Message.id)) fun db => db.putMessages messages

/-- Writes one message. -/
def insertMessage (message : Message) (cached : Bool) : Action Replica Unit :=
  insert [message] cached

/-- Completes stored messages with the users that the replica knows. -/
def hydrate (messages : List Message) : Action Replica (List Message) := do
  if messages.isEmpty then return []
  let directory ← Users.directory (messages.flatMap Message.userIds)
  return messages.map (Message.withUsers directory)

/-- The message with this id: from the cache, else from the database. -/
def select (id : String) : Action Replica (Option Message) := do
  let cached ← .update fun r =>
    let (message, messages) := r.messages.get? id
    (message, { r with messages })
  match cached with
  | some message => return some message
  | none =>
      let stored ← Replica.read (.message id) fun db => db.message? id
      -- what is read from the database is completed, but not filed in the cache
      return (← hydrate stored.toList).getLast?

/-- The messages with these ids: the cached ones, then the stored ones among the others. -/
def selectMany (ids : List String) : Action Replica (List Message) := do
  let (hits, misses) ← .update fun r =>
    let (found, messages) := r.messages.getAll (firstOfKeys ids)
    (found, { r with messages })
  if misses.isEmpty then return hits
  let stored ← Replica.read (.messages misses) fun db => db.messagesOf misses
  return hits ++ (← hydrate stored)

/-- The newest `limit` messages of a channel, newest first. -/
def forChannel (cid : String) (limit : Nat) : Action Replica (List Message) := do
  hydrate (← Replica.read (.messagesForChannel cid limit) fun db => db.messagesForChannel cid limit)

/-- The first `limit` stored messages of a status above the id `after`. -/
def byStatus (status : SyncStatus) (after : Option String) (limit : Nat) :
    Action Replica (List Message) := do
  hydrate (← Replica.read (.messagesByStatus status after limit) fun db =>
    db.messagesByStatus status after limit)

/-- Removes all messages from cache and database. -/
def clear : Action Replica Nat := do
  .modify fun r => { r with messages := r.messages.clear }
  Replica.delete .deleteMessages Database.deleteMessages

end Messages

end OfflineChat
