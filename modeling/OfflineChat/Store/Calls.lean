import OfflineChat.Store.Action
import OfflineChat.Store.Image

/-! # Calls on a database

What is done to a database from outside, one call after another: entities are written, tables are
emptied, the schema is brought up to date, the file is closed and opened again, and its version is
overwritten. Main definitions: `Opening`, the two ways to bring the schema up to date;
`SchemaEvent`, for databases of which only the schema is touched; `DatabaseCall`, for those that are
used; and `DatabaseCall.written`, what calls have written that has not been deleted again. -/

set_option autoImplicit false

namespace OfflineChat

/-! ## Opening -/

/-- A way to bring the schema of a database up to date. -/
inductive Opening where
  /-- The migrations run on the open database. -/
  | migrate
  /-- The file is closed and opened again. -/
  | reopen

namespace Opening

/-- The database that is opened, unless it is refused. -/
def opened : Opening → Database → Except StoreError Database
  | migrate, db => db.migrate
  | reopen, db => db.reopen

/-- Opens a database; one that is refused stays as it is. -/
def run (o : Opening) : Action Database Unit := fun db =>
  match o.opened db with
  | .ok db => (.ok (), db)
  | .error e => (.error e, db)

end Opening

/-- Something that touches the schema of a database. -/
inductive SchemaEvent where
  | opening (o : Opening)
  /-- Another version is noted, past the migrations. -/
  | version (n : Int)

namespace SchemaEvent

/-- The database after an event, whether or not it was refused. -/
def apply : SchemaEvent → Database → Database
  | opening o, db => (o.run db).2
  | version n, db => db.withVersion n

/-- The database after one event after another. -/
def applyAll (events : List SchemaEvent) (db : Database) : Database :=
  events.foldl (fun db e => e.apply db) db

end SchemaEvent

/-! ## Use -/

/-- A call that may change a database. -/
inductive DatabaseCall where
  | putUsers (users : List User)
  | putUserRecords (records : List UserRecord)
  | putChannels (channels : List Channel)
  | putMessages (messages : List Message)
  | deleteUsers
  | deleteChannels
  | deleteMessages
  /-- All tables are emptied. -/
  | clear
  | opening (o : Opening)

namespace DatabaseCall

/-- What a call does; it gives the number of rows that it removes. -/
def run : DatabaseCall → Action Database Nat
  | putUsers users => .update fun db => (0, db.putUsers users)
  | putUserRecords records => .update fun db => (0, db.putUserRecords records)
  | putChannels channels => .update fun db => (0, db.putChannels channels)
  | putMessages messages => .update fun db => (0, db.putMessages messages)
  | deleteUsers => .update Database.deleteUsers
  | deleteChannels => .update Database.deleteChannels
  | deleteMessages => .update Database.deleteMessages
  | clear => .update Database.clear
  | opening o => do
      o.run
      return 0

/-- The database after one call after another. -/
def runAll (calls : List DatabaseCall) (db : Database) : Database :=
  calls.foldl (fun db c => (c.run db).2) db

end DatabaseCall

/-! ## What has been written -/

/-- What a call does to one table. -/
inductive TableChange (α : Type) where
  | keep
  | put (items : List α)
  | delete

/-- The items written since the last deletion, after a further change. -/
def TableChange.following {α : Type} : TableChange α → List α → List α
  | keep, written => written
  | put items, written => written ++ items
  | delete, _ => []

/-- The entities that have been written to each table since its rows were last deleted. -/
structure Written where
  users : List UserRecord
  channels : List Channel
  messages : List Message

namespace DatabaseCall

/-- What a call does to the users. -/
def onUsers : DatabaseCall → TableChange UserRecord
  | putUsers users => .put (users.map fun u => ⟨u, none⟩)
  | putUserRecords records => .put records
  | deleteUsers | clear => .delete
  | putChannels _ | putMessages _ => .keep
  | deleteChannels | deleteMessages | opening _ => .keep

/-- What a call does to the channels. -/
def onChannels : DatabaseCall → TableChange Channel
  | putChannels channels => .put channels
  | deleteChannels | clear => .delete
  | putUsers _ | putUserRecords _ | putMessages _ => .keep
  | deleteUsers | deleteMessages | opening _ => .keep

/-- What a call does to the messages. -/
def onMessages : DatabaseCall → TableChange Message
  | putMessages messages => .put messages
  | deleteMessages | clear => .delete
  | putUsers _ | putUserRecords _ | putChannels _ => .keep
  | deleteUsers | deleteChannels | opening _ => .keep

/-- What has been written after a further call. -/
def following (c : DatabaseCall) (w : Written) : Written where
  users := c.onUsers.following w.users
  channels := c.onChannels.following w.channels
  messages := c.onMessages.following w.messages

/-- What a sequence of calls has written to a new database. -/
def written (calls : List DatabaseCall) : Written :=
  calls.foldl (fun w c => c.following w) ⟨[], [], []⟩

end DatabaseCall

end OfflineChat
