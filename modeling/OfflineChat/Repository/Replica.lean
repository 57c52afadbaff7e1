import OfflineChat.Cache
import OfflineChat.Store.Action
import OfflineChat.Store.Database

/-! # The local replica

What the client holds locally: the database, and a cache in front of each of its tables. Every
access to the database is a `StoreCall`; calls are listed, and the medium may fail any of them. Main
definitions: `Replica`, `StoreCall`, and `Replica.call`, the one way to the database. -/

set_option autoImplicit false

namespace OfflineChat

/-- An access to the database. -/
inductive StoreCall where
  | putUsers (ids : List String)
  | putUserRecord (id : String) (realId : Option String)
  | user (id : String)
  | userRecord (id : String)
  | users (ids : List String)
  | deleteUsers
  | putChannels (cids : List String)
  | channel (cid : String)
  | channels (cids : List String)
  | channelsByStatus (status : SyncStatus) (after : Option String) (limit : Nat)
  | channelKeysByStatus (status : SyncStatus)
  | deleteChannels
  | putMessages (ids : List String)
  | message (id : String)
  | messages (ids : List String)
  | messagesForChannel (cid : String) (limit : Nat)
  | messagesByStatus (status : SyncStatus) (after : Option String) (limit : Nat)
  | deleteMessages
  deriving DecidableEq

/-- Database and caches of a client. -/
structure Replica where
  database : Database
  /-- How the medium fails a call, if it does. -/
  faults : StoreCall → Option StoreError
  /-- The calls made so far, last first. -/
  calls : List StoreCall
  users : EntityCache User
  channels : EntityCache Channel
  messages : EntityCache Message
  /-- The user of the session, who is never looked up. -/
  currentUser : Option User

namespace Replica

/-- A replica with empty caches in front of a database. -/
def new (database : Database) (currentUser : Option User)
    (userCapacity channelCapacity messageCapacity : Nat) : Replica where
  database := database
  faults := fun _ => none
  calls := []
  users := .new userCapacity
  channels := .new channelCapacity
  messages := .new messageCapacity
  currentUser := currentUser

/-- Empties all caches. -/
def clearCaches (r : Replica) : Replica :=
  { r with users := r.users.clear, channels := r.channels.clear, messages := r.messages.clear }

/-- Makes a call: it is listed, and answered by the database unless the medium fails it. -/
def call {α : Type} (c : StoreCall) (answer : Database → Except StoreError α × Database) :
    Action Replica α := fun r =>
  let r := { r with calls := c :: r.calls }
  match r.faults c with
  | some e => (.error e, r)
  | none =>
      let (result, database) := answer r.database
      (result, { r with database })

/-- A call that reads. -/
def read {α : Type} (c : StoreCall) (answer : Database → Except StoreError α) : Action Replica α :=
  call c fun db => (answer db, db)

/-- A call that writes. -/
def write (c : StoreCall) (change : Database → Database) : Action Replica Unit :=
  call c fun db => (.ok (), change db)

/-- A call that removes rows and gives their number. -/
def delete (c : StoreCall) (change : Database → Nat × Database) : Action Replica Nat :=
  call c fun db => (.ok (change db).1, (change db).2)

end Replica

end OfflineChat
