import OfflineChat.Store.Image
import OfflineChat.Tool.Session
import Std.Time.DateTime.Timestamp

/-! # The command line

The program around `Tool.runOn`: it reads the words of the command line, the variables of the
environment, the clock and the file of the database, and it prints the lines and writes the file
that a run leaves. -/

set_option autoImplicit false

namespace OfflineChat.Tool

/-- Ends the program with a complaint. -/
def complain (text : String) (code : Nat) : IO Nat := do
  IO.eprintln text
  return code

/-- The time of the clock. -/
def readClock : IO (Option Instant) := do
  let now := (← Std.Time.Timestamp.now).toNanosecondsSinceUnixEpoch.val
  return now.toNat?.bind fun nanos =>
    Instant.sinceEpoch? (nanos / 1_000_000_000) (nanos % 1_000_000_000)

/-- Random numbers of 128 bits. -/
def readRandom (count : Nat) : IO (Nat → Nat) := do
  let bytes ← IO.getRandomBytes (.ofNat (16 * count))
  return fun i => (bytes.extract (16 * i) (16 * i + 16)).foldl (fun n b => 256 * n + b.toNat) 0

/-- The variables that a run looks at. -/
def readEnvironment : IO (String → Option String) := do
  let values ← variableNames.mapM fun name => return (name, ← IO.getEnv name)
  return fun name => (values.find? fun v => v.1 == name).bind Prod.snd

/-- The text of a database file. The file and the directories above it are made unless they are
there; a database in memory has no text. -/
def openText (path : String) : IO String := do
  if path = memoryPath then return ""
  IO.FS.createDirAll (directoryOf path)
  discard <| IO.FS.Handle.mk path .append
  IO.FS.readFile path

/-- Runs a command on a file and gives the exit code. -/
def runOnFile (environment : String → Option String) (invocation : Invocation) (path : String) :
    IO Nat := do
  let some now ← readClock | complain "the clock is out of range" failure
  let random ← readRandom (randomNumbers invocation.command)
  let text ← openText path
  let found := DatabaseFile.ofImage? text
  if text ≠ "" && found.isNone then return ← complain (path ++ " holds no database") failure
  let result := runOn environment ⟨now, random⟩ invocation path found
  result.printed.forM IO.println
  if let some database := result.database then IO.FS.writeFile path database.file.image
  match result.outcome with
  | .done => return result.exitCode
  | .failed e => complain e.report result.exitCode
  | .noRoom => complain "there is no room for so many entities" result.exitCode

/-- Does what the words of a command line ask for and gives the exit code. -/
def runWords (words : List String) : IO Nat := do
  match Invocation.ofWords? words with
  | none => complain usage misuse
  | some ⟨_, .help⟩ =>
      IO.println usage
      return success
  | some invocation =>
      let environment ← readEnvironment
      match path? environment invocation.database with
      | none => complain "no place for the database" failure
      | some path => runOnFile environment invocation path

end OfflineChat.Tool

/-- Runs the tool on the words of the command line; what the system refuses is reported. -/
def main (words : List String) : IO UInt32 := do
  return .ofNat (← tryCatch (OfflineChat.Tool.runWords words) fun e =>
    OfflineChat.Tool.complain (toString e) OfflineChat.Tool.failure)
