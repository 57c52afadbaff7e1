import OfflineChat.Context
import OfflineChat.Json.Printer
import OfflineChat.Sync.Document
import OfflineChat.Tool.Arguments
import OfflineChat.Tool.Backend
import OfflineChat.Tool.Fixture

/-! # Sessions of the tool

What each command of the tool does to a client and prints. Main definitions: `Session`, a client
with the lines printed so far; `Session.execute`; and `Tool.runOn`, a whole run of the tool on a
database file. -/

set_option autoImplicit false

namespace OfflineChat

/-! ## Commands -/

/-- A client of the simulated service, and the texts printed so far, in order. -/
structure Session where
  client : Client Nat
  printed : List String

/-- What the surroundings give to a run: the time and a source of random numbers. -/
structure Surroundings where
  now : Instant
  random : Nat → Nat

namespace Session

/-- Prints a text and ends the line. -/
def print (text : String) : Action Session Unit :=
  .modify fun s => { s with printed := s.printed ++ [text] }

/-- An action on the replica. -/
def onReplica {α : Type} (x : Action Replica α) : Action Session α :=
  .lift Session.client (fun s client => { s with client }) (Client.onReplica x)

/-- The statuses in the order in which they are listed. -/
def listedStatuses : List SyncStatus :=
  [.syncNeeded, .inProgress, .awaitingAttachments, .completed, .failedPermanently]

/-- Does something for each item in turn. -/
def each {α : Type} (f : α → Action Session Unit) : List α → Action Session Unit
  | [] => pure ()
  | a :: as => do
      f a
      each f as

/-- Fills the database with waiting entities. -/
def generate (count members : Nat) (around : Surroundings) : Action Session Unit := do
  let fixture := Fixture.build count members around.now around.random
  onReplica (Users.insert fixture.users)
  onReplica (Channels.insert fixture.channels)
  onReplica (Messages.insert fixture.messages false)
  let channels := fixture.channels.length
  let users := fixture.users.length
  let messages := fixture.messages.length
  print s!"generated {channels} channels, {users} users, {messages} messages"

/-- The author of a message by name, else by id. -/
def authorOf (m : Message) : String := m.user.name.getD m.user.id

/-- A text with blanks behind it, up to a number of characters. -/
def padded (width : Nat) (s : String) : String := String.ofList (s.toList.rightpad width ' ')

/-- The lines of a message: status, id, author and text, and the reason of a failure. -/
def messageLines (m : Message) : List String :=
  ("  " ++ m.syncStatus.label ++ " " ++ padded 24 m.id ++ " " ++ authorOf m ++ ": " ++ m.text) ::
    (m.syncDescription.map fun reason => "      ! " ++ reason).toList

/-- Lists the newest messages of a channel. -/
def readChannel (status : SyncStatus) (limit : Nat) (cid : String) : Action Session Unit := do
  print (cid ++ " [" ++ status.label ++ "]")
  let messages ← onReplica (Messages.forChannel cid limit)
  each print (messages.flatMap messageLines)

/-- Lists the newest messages of every channel, by status. -/
def read (limit : Nat) : Action Session Unit :=
  each (fun status => do
    let cids ← onReplica (Channels.keysByStatus status)
    each (readChannel status limit) cids) listedStatuses

/-- Lists the keys of the channels by status; a status without channels is left out. -/
def readKeys : Action Session Unit :=
  each (fun status => do
    let cids ← onReplica (Channels.keysByStatus status)
    if cids.isEmpty then return ()
    print (status.label ++ s!" ({cids.length})")
    each (fun cid => print ("  " ++ cid)) cids) listedStatuses

/-- Runs a sync pass and prints its report. -/
def retry (failEvery : Option Nat) (rules : SyncRules) : Action Session Unit := fun s =>
  match s.client.sync (Backend.service failEvery rules.now) rules with
  | (.finished (.ok (some report)), client) =>
      print (String.ofList report.toJson.pretty) { s with client }
  | (.finished (.error e), client) => (.error e, { s with client })
  | (_, client) => print "a sync pass is already running" { s with client }

/-- Empties the database and tells how many rows it held. -/
def deleteAll : Action Session Unit := do
  let removed ← .update fun s =>
    let (removed, client) := s.client.clearLocalData
    (removed, { s with client })
  print s!"removed {removed} rows"

/-- Does what a command asks for. -/
def execute (rules : SyncRules) (around : Surroundings) : Command → Action Session Unit
  | .generate count members => generate count members around
  | .read limit => read limit
  | .readKeys => readKeys
  | .retry failEvery => retry failEvery rules
  | .deleteAll => deleteAll
  | .help => pure ()

end Session

/-! ## Runs -/

/-- How a run ends. -/
inductive RunOutcome where
  | done
  | failed (error : StoreError)
  /-- There is no room for what is to be made. -/
  | noRoom

/-- What a run leaves: how it ended, the texts printed on separate lines, and the database to be
written to the file, unless it could not be opened or is in memory only. -/
structure RunResult where
  outcome : RunOutcome
  printed : List String
  database : Option Database

namespace Tool

/-- How the tool is called. -/
def usage : String :=
  "\n".intercalate
    [ "Usage: [-d FILE | --database FILE] COMMAND",
      "",
      "generate [--count N] [--members N]  fill the database with waiting entities",
      "read [--limit N]                    list the newest messages of every channel",
      "read-cids                           list the channels by status",
      "retry [--fail-every K]              run a sync pass against a simulated service",
      "delete-all                          empty the database" ]

/-- The exit code when all went well. -/
def success : Nat := 0

/-- The exit code when something failed. -/
def failure : Nat := 1

/-- The exit code when the command line makes no sense. -/
def misuse : Nat := 2

/-- The exit code when there is no room. -/
def overflow : Nat := 101

/-- The settings of an invocation: those of the environment, but the database that is named. -/
def config (environment : String → Option String) (database : Option String) : Config :=
  let c := Config.ofEnvironment environment
  { c with databasePath := database.or c.databasePath }

/-- The variables that a run looks at. -/
def variableNames : List String := Config.variableNames ++ ["HOME", "XDG_DATA_HOME"]

/-- The file of the database. -/
def path? (environment : String → Option String) (database : Option String) : Option String :=
  (config environment database).databasePath.or
    (defaultPath? (environment "HOME") (environment "XDG_DATA_HOME"))

/-- The path that names a database in memory, which no file keeps. -/
def memoryPath : String := ":memory:"

/-- There is room for the caches and for what a command makes. -/
def hasRoom (config : Config) (command : Command) : Bool :=
  config.cachesFit &&
    match command with
    | .generate count members => Fixture.hasRoom count members
    | _ => true

/-- How an action of a session has ended. -/
def outcomeOf : Except StoreError Unit → RunOutcome
  | .ok () => .done
  | .error e => .failed e

/-- What a file keeps of a database. -/
def kept (path : String) (database : Database) : Option Database :=
  if path = memoryPath then none else some database

/-- Runs a command on a database file as it is found; one that is not there counts as blank. -/
def runOn (environment : String → Option String) (around : Surroundings) (invocation : Invocation)
    (path : String) (found : Option DatabaseFile) : RunResult :=
  match (found.getD .blank).opened (some path) with
  | .error e => ⟨.failed e, [], none⟩
  | .ok database =>
      let config := config environment invocation.database
      if hasRoom config invocation.command then
        let session : Session := ⟨config.client database none 0, []⟩
        let (result, session) :=
          Session.execute (config.rules Classifier.standard around.now) around invocation.command
            session
        ⟨outcomeOf result, session.printed, kept path session.client.replica.database⟩
      else ⟨.noRoom, [], kept path database⟩

/-- The random numbers that a command may ask for: one for all names, and two a message. -/
def randomNumbers : Command → Nat
  | .generate count members =>
      if Fixture.hasRoom count members then 1 + 2 * max members 1 * count else 0
  | _ => 0

end Tool

/-- The exit code of a run. -/
def RunResult.exitCode (r : RunResult) : Nat :=
  match r.outcome with
  | .done => Tool.success
  | .failed _ => Tool.failure
  | .noRoom => Tool.overflow

end OfflineChat
