import OfflineChat.Entity.Document
import OfflineChat.Json.Access

/-! # Entities given in part

A document may give only some of the fields of an entity; the others are those of a base entity. A
user or a channel may also be given by its id alone. Main definitions: `User.given?`,
`Attachment.given?`, `Channel.given?`, `Message.given?`, and `Channel.amended?` and
`Message.amended?`, which replace fields of an entity. -/

set_option autoImplicit false

namespace OfflineChat

namespace Json

/-- The fields of `base`, replaced by those of the same names that are given. -/
def overlay (base given : Json) : Json :=
  match base with
  | object fields => object (fields.map fun f => (f.1, (given.field? f.1).getD f.2))
  | v => v

/-- Applies a function to every item. -/
def mapItems (f : Json → Json) : Json → Json
  | array items => array (items.map f)
  | v => v

/-- Reads a document that is held as a value, nested as deep as it is. -/
def decode? {α : Type} (ofDraft? : Nat → Draft → Option α) (v : Json) : Option α :=
  ofDraft? (2 * Draft.maxDepth) v.toDraft

end Json

/-- The whole document of a user: given by its id, in part, or not at all. -/
def User.completed : Json → Json
  | .string id => (User.new id).toJson
  | .null => (default : User).toJson
  | given => (User.new "").toJson.overlay given

/-- A user given in part. -/
def User.given? (given : Json) : Option User := (User.completed given).decode? User.ofDraft?

/-- The whole document of an attachment given in part. -/
def Attachment.completed (given : Json) : Json := (default : Attachment).toJson.overlay given

/-- An attachment given in part. -/
def Attachment.given? (given : Json) : Option Attachment :=
  (Attachment.completed given).decode? Attachment.ofDraft?

/-- A channel with some of its fields replaced. -/
def Channel.amended? (c : Channel) (given : Json) : Option Channel :=
  (c.toJson.overlay given).decode? Channel.ofDraft?

/-- A channel given by its id or in part; its key follows from type and id. -/
def Channel.given? : Json → Option Channel
  | .string id => some (Channel.new "messaging" id)
  | given =>
      (Channel.new (((given.field "channel_type").text?).getD "messaging")
        (((given.field "channel_id").text?).getD "")).amended? given

/-- A field of a message, whose users and attachments may be given in part. -/
def Message.completedField : String × Json → String × Json
  | ("user", v) => ("user", User.completed v)
  | ("mentioned_users", v) => ("mentioned_users", v.mapItems User.completed)
  | ("attachments", v) => ("attachments", v.mapItems Attachment.completed)
  | f => f

/-- A message with some of its fields replaced; users and attachments may be given in part. -/
def Message.amended? (m : Message) (given : Json) : Option Message :=
  match m.toJson.overlay given with
  | .object fields => (Json.object (fields.map completedField)).decode? Message.ofDraft?
  | _ => none

/-- A message given in part. -/
def Message.given? (given : Json) : Option Message := (default : Message).amended? given

end OfflineChat
