import OfflineChat.Text.Numeral

/-! # Arguments of the command line

What the words of a command line ask for. Options with a value are written `--name value` or
`--name=value`, and no option may be given twice; the option for the database stands before the
command. Main definitions: `Command`, `Invocation` and `Invocation.ofWords?`. -/

set_option autoImplicit false

namespace OfflineChat

/-- What the tool does. -/
inductive Command where
  /-- Fills the database with waiting entities. -/
  | generate (count members : Nat)
  /-- Lists the newest messages of every channel. -/
  | read (limit : Nat)
  /-- Lists the keys of the channels by status. -/
  | readKeys
  /-- Runs a sync pass against a simulated service. -/
  | retry (failEvery : Option Nat)
  /-- Empties the database. -/
  | deleteAll
  /-- Explains the tool. -/
  | help
  deriving DecidableEq

/-- A command, and the database file it is to use. -/
structure Invocation where
  database : Option String
  command : Command
  deriving DecidableEq

namespace Invocation

/-! ## Options -/

/-- A word that may be the value of an option: no option itself, but a single hyphen. -/
def isValue (word : String) : Bool := word == "-" || word.toList.head? != some '-'

/-- An option and its value in one word, with an equals sign between them. -/
def joined? (word : String) : Option (String × String) :=
  let cs := word.toList
  match cs.dropWhile (· != '=') with
  | '=' :: value => some (String.ofList (cs.takeWhile (· != '=')), String.ofList value)
  | _ => none

/-- A word that asks for help: the long option, or short options of which that for help is the
first, which makes the others meaningless. -/
def isHelp (word : String) : Bool := word == "--help" || word.toList.take 2 == ['-', 'h']

/-- What the words after a command make: the values of its options, or a call for help. -/
inductive Options where
  | values (values : List (String × Nat))
  | help

/-- One more numeric option, which must be known, new and well written. -/
def withNumber? (names : List String) (values : List (String × Nat)) (name text : String) :
    Option (List (String × Nat)) :=
  if names.contains name ∧ (values.all fun v => v.1 != name) then
    (Numeral.count? text).map fun n => (name, n) :: values
  else none

/-- Reads the words after a command: numeric options, each at most once. A word that asks for help
makes those after it meaningless; otherwise no other word may follow. -/
def options? (names : List String) (values : List (String × Nat)) : List String → Option Options
  | [] => some (.values values)
  | word :: rest =>
      if isHelp word then some .help
      else
        match joined? word with
        | some (name, text) =>
            (withNumber? names values name text).bind fun values => options? names values rest
        | none =>
            match rest with
            | [] => if word = "--" then some (.values values) else none
            | text :: rest =>
                if isValue text then
                  (withNumber? names values word text).bind fun values => options? names values rest
                else none

/-- The value of an option among those given. -/
def lookup? (name : String) (values : List (String × Nat)) : Option Nat :=
  (values.find? fun v => v.1 == name).map Prod.snd

/-! ## Commands -/

/-- The names of the commands. -/
def commandNames : List String := ["generate", "read", "read-cids", "retry", "delete-all", "help"]

/-- The command that the words after its name make, given its options. -/
def withOptions? (names : List String) (words : List String)
    (command : List (String × Nat) → Command) : Option Command :=
  (options? names [] words).map fun
    | .values values => command values
    | .help => .help

/-- The command that the words after its name make. Help may be asked for on one command. -/
def command? (name : String) (words : List String) : Option Command :=
  if name = "generate" then
    withOptions? ["--count", "--members"] words fun vs =>
      .generate ((lookup? "--count" vs).getD 10) ((lookup? "--members" vs).getD 3)
  else if name = "read" then
    withOptions? ["--limit"] words fun vs => .read ((lookup? "--limit" vs).getD 20)
  else if name = "read-cids" then withOptions? [] words fun _ => .readKeys
  else if name = "retry" then
    withOptions? ["--fail-every"] words fun vs => .retry (lookup? "--fail-every" vs)
  else if name = "delete-all" then withOptions? [] words fun _ => .deleteAll
  else if name = "help" then
    match words with
    | [] => some .help
    | [topic] => if commandNames.contains topic then some .help else none
    | _ => none
  else none

/-- The database file, if the words begin with an option for it, and the words after it. The short
option may be joined to its value. -/
def databaseOption? : List String → Option (String × List String)
  | [] => none
  | word :: rest =>
      match joined? word, word.toList with
      | some ("--database", file), _ => some (file, rest)
      | some ("-d", file), _ => some (file, rest)
      | _, '-' :: 'd' :: c :: cs => some (String.ofList (c :: cs), rest)
      | _, _ =>
          match rest with
          | [] => none
          | file :: rest =>
              if (word = "--database" ∨ word = "-d") ∧ isValue file then some (file, rest) else none

/-- The command that the words make, for a database. -/
def ofCommandWords? (database : Option String) : List String → Option Invocation
  | [] => none
  | name :: words =>
      if isHelp name then some ⟨database, .help⟩
      else (command? name words).map fun c => ⟨database, c⟩

/-- What the words of a command line ask for; an empty file name is refused. -/
def ofWords? (words : List String) : Option Invocation :=
  match databaseOption? words with
  | none => ofCommandWords? none words
  | some (file, words) => if file = "" then none else ofCommandWords? (some file) words

end Invocation

end OfflineChat
