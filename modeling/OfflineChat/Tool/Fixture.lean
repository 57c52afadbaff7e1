import OfflineChat.Entity.Channel
import OfflineChat.Entity.Message

/-! # Waiting entities to try things with

Users, channels and messages for an empty database, made up from a source of random numbers. Each
channel has all users as members and one message of each, and all of them wait to be uploaded. -/

set_option autoImplicit false

namespace OfflineChat

/-- Users, channels and messages. -/
structure Fixture where
  users : List User
  channels : List Channel
  messages : List Message

namespace Fixture

/-- The words that messages are made of. -/
def words : List String :=
  ["offline", "hello", "sync", "later", "queued", "retry", "ping", "draft", "coffee", "ship"]

/-- Two to five words, chosen by the digits of a random number. -/
def wordsOf (random : Nat) : String :=
  let count := 2 + random % 4
  " ".intercalate ((List.range count).map fun i =>
    words.getD (random / 4 / Nat.pow words.length i % words.length) "")

/-- Eight hexadecimal digits. -/
def mark (random : Nat) : String :=
  String.ofList ((Nat.toDigits 16 (random % 0x1_0000_0000)).leftpad 8 '0')

/-- The `i`-th member. -/
def member (mark : String) (i : Nat) : User :=
  { User.new s!"member-{mark}-{i}" with name := some s!"Member {i}" }

/-- The message of the `i`-th member in a channel. -/
def message (now : Instant) (cid : String) (random : Nat → Nat) (author : User) (i : Nat) :
    Message :=
  { (default : Message) with
    id := Message.freshId author.id (random (2 * i))
    cid := cid
    user := author
    text := wordsOf (random (2 * i + 1))
    createdLocallyAt := now.later? i
    syncStatus := .syncNeeded }

/-- A channel with its messages. -/
def channel (now : Instant) (type id : String) (members : List User) (random : Nat → Nat) :
    Channel × List Message :=
  let bare := Channel.new type id
  let messages := members.zipIdx.map fun (author, i) => message now bare.cid random author i
  ({ bare with
     createdByUserId := (members.head?.map User.id).getD ""
     memberCount := Int32.ofNat members.length
     createdAt := some now
     lastMessageId := messages.getLast?.map Message.id
     lastMessageAt := messages.getLast?.bind Message.createdLocallyAt
     syncStatus := .syncNeeded }, messages)

/-- The most users and the most messages that are made at a time. -/
def capacity : Nat := 0x1_0000_0000

/-- There is room for so many channels with so many members each. -/
def hasRoom (count members : Nat) : Bool :=
  max members 1 ≤ capacity && count * max members 1 ≤ capacity

/-- `count` channels with `members` members each, and at least one. -/
def build (count members : Nat) (now : Instant) (random : Nat → Nat) : Fixture :=
  let mark := mark (random 0)
  let users := (List.range (max members 1)).map (member mark)
  let channels := (List.range count).map fun c =>
    channel now "messaging" s!"dbtool-{mark}-{c}" users fun i =>
      random (1 + 2 * users.length * c + i)
  ⟨users, channels.map Prod.fst, channels.flatMap Prod.snd⟩

end Fixture

end OfflineChat
