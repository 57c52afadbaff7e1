import OfflineChat.Store.EntityRow
import OfflineChat.Store.Schema
import OfflineChat.Table

/-! # The database

Three tables of rows and the version of their schema. Entities are written as whole rows, in place
of the row with the same key, and read back row by row; a read fails at the first row that cannot be
read. Main definitions: `Database`, its writers `putUsers`, `putChannels` and `putMessages`, its
readers by key, by status and by channel, and `clear`; and `DatabaseFile`, what its file holds, which
`DatabaseFile.opened` brings up to date. -/

set_option autoImplicit false

namespace OfflineChat

/-- Three tables and the version of their schema. -/
structure Database where
  /-- The file that holds the tables, unless they are held in memory only. -/
  path : Option String
  version : Int
  users : Table Row
  channels : Table Row
  messages : Table Row

/-! ## Choosing rows -/

namespace Table

/-- The rows whose keys are listed. -/
def among (t : Table Row) (keys : List String) : List Row :=
  t.rows.filter fun r => keys.contains (key r)

/-- The rows of a status whose keys lie above `after`; `cell` is where the status is held. -/
def withStatus (t : Table Row) (cell : Row → Cell) (status : SyncStatus) (after : Option String) :
    List Row :=
  t.rows.filter fun r => cell r == .integer status.code && after.all (· < key r)

end Table

/-- At most `limit` of the items. A limit that a signed word of 64 bits cannot hold is none. -/
def atMost {α : Type} (limit : Nat) (items : List α) : List α :=
  if limit < 0x8000_0000_0000_0000 then items.take limit else items

/-- As many keys go into one query. -/
def maxKeysPerQuery : Nat := 500

/-- The items in groups of `size + 1`, in order; the last group may be smaller. -/
def groupsOf {α : Type} (size : Nat) (items : List α) : List (List α) :=
  match items with
  | [] => []
  | a :: as => (a :: as).take (size + 1) :: groupsOf size (as.drop size)
termination_by items.length
decreasing_by simp only [List.length_drop, List.length_cons]; omega

/-- One row comes before another in the history of a channel: later times first, rows without a time
last, and of equal times the greater id first. -/
def Row.newerFirst (a b : Row) : Bool :=
  match a.sentAt, b.sentAt with
  | .text s, .text t => t < s || (s == t && key b ≤ key a)
  | .text _, _ => true
  | _, .text _ => false
  | _, _ => key b ≤ key a

/-! ## Opening -/

/-- What a database file holds: the version of its schema, and the tables that have been set up. -/
structure DatabaseFile where
  version : Int
  users : Option (Table Row)
  channels : Option (Table Row)
  messages : Option (Table Row)

/-- The version of the schema that this library writes. -/
def Database.currentVersion : Int := 1

namespace DatabaseFile

/-- A file without a schema. -/
def blank : DatabaseFile := ⟨0, none, none, none⟩

/-- Sets up a table unless there is one. -/
def setUp (t : Option (Table Row)) : Option (Table Row) := some (t.getD .empty)

/-- The first version of the schema: three tables, of which those that are there stay as they are. -/
def withTables (f : DatabaseFile) : DatabaseFile :=
  { f with users := setUp f.users, channels := setUp f.channels, messages := setUp f.messages }

/-- Brings the schema up to date; a later version, or none at all, is refused. -/
def migrate (f : DatabaseFile) : Except StoreError DatabaseFile :=
  if f.version < 0 then .error (.outOfRange 0 f.version)
  else if Database.currentVersion < f.version then
    .error (.newerSchema f.version Database.currentVersion)
  else if f.version < 1 then .ok { f.withTables with version := 1 }
  else .ok f

/-- The database that the tables of a file make. -/
def database (path : Option String) (f : DatabaseFile) : Database where
  path := path
  version := f.version
  users := f.users.getD .empty
  channels := f.channels.getD .empty
  messages := f.messages.getD .empty

/-- Opens a file: its schema is brought up to date before anything else. -/
def opened (path : Option String) (f : DatabaseFile) : Except StoreError Database :=
  f.migrate.map (database path)

end DatabaseFile

namespace Database

/-- The file of a database. -/
def file (db : Database) : DatabaseFile :=
  ⟨db.version, some db.users, some db.channels, some db.messages⟩

/-- Brings the schema of an open database up to date. -/
def migrate (db : Database) : Except StoreError Database := db.file.opened db.path

/-- A new database. -/
def create (path : Option String) : Database := ⟨path, currentVersion, .empty, .empty, .empty⟩

/-- The database with another version noted on it, past the migrations. A number that 32 bits cannot
hold counts as 0. -/
def withVersion (db : Database) (version : Int) : Database :=
  { db with version := if -0x8000_0000 ≤ version ∧ version < 0x8000_0000 then version else 0 }

theorem opened_blank (path : Option String) : DatabaseFile.blank.opened path = .ok (create path) :=
  rfl

@[simp] theorem database_file (db : Database) : db.file.database db.path = db := rfl

/-! ## Writing -/

/-- Writes users with what their rows hold beside them. -/
def putUserRecords (db : Database) (records : List UserRecord) : Database :=
  { db with users := db.users.putAll (records.map UserRecord.toRow) }

/-- Writes users without a real id. -/
def putUsers (db : Database) (users : List User) : Database :=
  db.putUserRecords (users.map fun u => ⟨u, none⟩)

/-- Writes channels. -/
def putChannels (db : Database) (channels : List Channel) : Database :=
  { db with channels := db.channels.putAll (channels.map Channel.toRow) }

/-- Writes messages. -/
def putMessages (db : Database) (messages : List Message) : Database :=
  { db with messages := db.messages.putAll (messages.map Message.toRow) }

/-- Removes all users; gives their number. -/
def deleteUsers (db : Database) : Nat × Database := (db.users.size, { db with users := .empty })

/-- Removes all channels; gives their number. -/
def deleteChannels (db : Database) : Nat × Database :=
  (db.channels.size, { db with channels := .empty })

/-- Removes all messages; gives their number. -/
def deleteMessages (db : Database) : Nat × Database :=
  (db.messages.size, { db with messages := .empty })

/-- Removes all rows; gives their number. -/
def clear (db : Database) : Nat × Database :=
  (db.messages.size + db.channels.size + db.users.size,
    { db with users := .empty, channels := .empty, messages := .empty })

/-! ## Writing past the entities -/

/-- A table by its name. -/
def tableOf? (db : Database) (name : String) :
    Option (TableSpec × Table Row × (Table Row → Database)) :=
  let names (t : TableSpec) := TableSpec.sameName t.name name
  if names .users then some (.users, db.users, fun t => { db with users := t })
  else if names .channels then some (.channels, db.channels, fun t => { db with channels := t })
  else if names .messages then some (.messages, db.messages, fun t => { db with messages := t })
  else none

/-- Adds a row made of the given cells; a row with the same key is in its way. -/
def addRow (spec : TableSpec) (t : Table Row) (cells : List (String × Cell)) :
    Except StoreError (Table Row) := do
  let row ← spec.row cells
  match t.get? (key row) with
  | some _ => .error (.duplicateKey spec.name spec.keyColumn)
  | none => .ok (t.put row)

/-- Adds a row made of the given cells to the table of this name. -/
def addRowTo (db : Database) (table : String) (cells : List (String × Cell)) :
    Except StoreError Database :=
  match db.tableOf? table with
  | some (spec, t, withTable) => (addRow spec t cells).map withTable
  | none => .error (.unknownTable table)

/-! ## Reading -/

/-- Reads rows one after another. -/
def readRows {α : Type} (read : Row → Except StoreError α) : List Row → Except StoreError (List α)
  | [] => .ok []
  | r :: rows => do
      let a ← read r
      let as ← readRows read rows
      return a :: as

/-- Reads the row with this key. -/
def readOne {α : Type} (read : Row → Except StoreError α) (t : Table Row) (k : String) :
    Except StoreError (Option α) :=
  match t.get? k with
  | none => .ok none
  | some r => (read r).map some

/-- Reads the rows with these keys, group by group. -/
def readMany {α : Type} (read : Row → Except StoreError α) (t : Table Row) (keys : List String) :
    Except StoreError (List α) :=
  readRows read ((groupsOf (maxKeysPerQuery - 1) keys).flatMap t.among)

/-- The user with this id, with what its row holds beside it. -/
def userRecord? (db : Database) (id : String) : Except StoreError (Option UserRecord) :=
  readOne Row.userRecord db.users id

/-- The users with these ids. -/
def usersOf (db : Database) (ids : List String) : Except StoreError (List User) :=
  (readMany Row.userRecord db.users ids).map fun rs => rs.map UserRecord.user

/-- The channel with this key. -/
def channel? (db : Database) (cid : String) : Except StoreError (Option Channel) :=
  readOne Row.channel db.channels cid

/-- The channels with these keys. -/
def channelsOf (db : Database) (cids : List String) : Except StoreError (List Channel) :=
  readMany Row.channel db.channels cids

/-- The first `limit` channels of a status above the key `after`, by key. -/
def channelsByStatus (db : Database) (status : SyncStatus) (after : Option String) (limit : Nat) :
    Except StoreError (List Channel) :=
  readRows Row.channel (atMost limit (db.channels.withStatus Row.channelStatus status after))

/-- The keys of all channels of a status. -/
def channelKeysByStatus (db : Database) (status : SyncStatus) : List String :=
  (db.channels.withStatus Row.channelStatus status none).map key

/-- The message with this id. -/
def message? (db : Database) (id : String) : Except StoreError (Option Message) :=
  readOne Row.message db.messages id

/-- The messages with these ids. -/
def messagesOf (db : Database) (ids : List String) : Except StoreError (List Message) :=
  readMany Row.message db.messages ids

/-- The newest `limit` messages of a channel, newest first. -/
def messagesForChannel (db : Database) (cid : String) (limit : Nat) :
    Except StoreError (List Message) :=
  readRows Row.message (atMost limit
    ((db.messages.rows.filter fun r => r.messageChannel == .text cid).mergeSort Row.newerFirst))

/-- The first `limit` messages of a status above the id `after`, by id. -/
def messagesByStatus (db : Database) (status : SyncStatus) (after : Option String) (limit : Nat) :
    Except StoreError (List Message) :=
  readRows Row.message (atMost limit (db.messages.withStatus Row.messageStatus status after))

end Database

/-! ## Where the file lies -/

/-- A directory that is named in full. -/
def isAbsolute (path : String) : Bool := path.toList.head? == some '/'

/-- A path below a directory. -/
def below (directory : String) (path : String) : String :=
  if directory.toList.getLast? == some '/' then directory ++ path else directory ++ "/" ++ path

/-- The directory of a file. -/
def directoryOf (path : String) : String :=
  match path.toList.reverse.dropWhile (· ≠ '/') with
  | [] => "."
  | [_] => "/"
  | _ :: cs => String.ofList cs.reverse

/-- The file of a database for which none is named: in the user's data directory, which is the one
set for that purpose if it is absolute, else a fixed one in the home directory. -/
def defaultPath? (home dataHome : Option String) : Option String :=
  match dataHome.filter isAbsolute with
  | some directory => some (below directory "parley/parley.db")
  | none => (home.filter (· ≠ "")).map fun h => below (below h ".local/share") "parley/parley.db"

end OfflineChat
