import OfflineChat.Entity.Attachment
import OfflineChat.Entity.User
import OfflineChat.Sync.Status

/-! # Messages

A chat message with its author and the users it mentions. Main definitions: `Message`,
`Message.users` and `Message.effectiveCreatedAt`. -/

set_option autoImplicit false

namespace OfflineChat

/-- A chat message. -/
structure Message where
  id : String
  cid : String
  user : User
  text : String
  attachments : List Attachment
  mentionedUsers : List User
  createdAt : Option Instant
  createdLocallyAt : Option Instant
  updatedAt : Option Instant
  updatedLocallyAt : Option Instant
  deletedAt : Option Instant
  extraData : ExtraData
  syncStatus : SyncStatus
  /-- Why the last submission was rejected. -/
  syncDescription : Option String

instance : Keyed Message := ⟨Message.id⟩

@[simp] theorem key_message (m : Message) : key m = m.id := rfl

/-- A message nothing is known of. -/
instance : Inhabited Message where
  default :=
    { id := "", cid := "", user := default, text := "", attachments := [], mentionedUsers := []
      createdAt := none, createdLocallyAt := none, updatedAt := none, updatedLocallyAt := none
      deletedAt := none, extraData := .empty, syncStatus := .completed, syncDescription := none }

/-- The users a message refers to, author first, each id once. -/
def Message.users (m : Message) : List User := firstOfKeys (m.user :: m.mentionedUsers)

/-- The time that orders messages: the server's, else the local one. -/
def Message.effectiveCreatedAt (m : Message) : Option Instant :=
  m.createdAt.or m.createdLocallyAt

/-- The id of a new message: its author's id and a random part of 128 bits, written as a version 4
universally unique identifier. -/
def Message.freshId (userId : String) (random : Nat) : String :=
  let digits (start count : Nat) : List Char :=
    (List.range count).map fun i => Nat.digitChar (random / Nat.pow 16 (31 - start - i) % 16)
  let variant := Nat.digitChar (8 + random / Nat.pow 16 15 % 4)
  userId ++ "-" ++ String.ofList (digits 0 8 ++ '-' :: (digits 8 4 ++ '-' :: '4' :: (digits 13 3 ++
    '-' :: variant :: (digits 17 3 ++ '-' :: digits 20 12))))

end OfflineChat
