import OfflineChat.Sync.AttachmentSend
import OfflineChat.Sync.Service

/-! # Operations of the application

Besides its sync passes a client has an application, which calls the repositories of the replica and
reports how attachments were sent, while the medium and the remote service change as they like. Main
definitions: `Operation`, a call of the application, with `Operation.apply`; `Circumstance`, what
medium or service are like; and `Outside`, whatever happens to a client besides its passes. -/

set_option autoImplicit false

namespace OfflineChat

/-- A call of the application on its replica. -/
inductive Operation where
  | insertUsers (users : List User)
  | insertMe (user : User)
  | selectMe
  | selectUser (id : String)
  | selectUsers (ids : List String)
  | directory (ids : List String)
  | clearUsers
  | insertChannels (channels : List Channel)
  | selectChannel (cid : String)
  | selectChannels (cids : List String)
  | channelsByStatus (status : SyncStatus) (after : Option String) (limit : Nat)
  | channelKeysByStatus (status : SyncStatus)
  | updateLastMessage (cid : String) (message : Message)
  | clearChannels
  | insertMessages (messages : List Message) (cached : Bool)
  | selectMessage (id : String)
  | selectMessages (ids : List String)
  | messagesForChannel (cid : String) (limit : Nat)
  | messagesByStatus (status : SyncStatus) (after : Option String) (limit : Nat)
  | clearMessages
  | clearCaches
  /-- Attachments are about to be sent. -/
  | sendRequest (message : Message)
  /-- Attachments were sent, or could not be. -/
  | sendResult (classifier : Classifier) (now : Instant) (message : Message)
      (result : Except RemoteError Message)

namespace Operation

/-- The replica after a call, whether or not the call succeeds. -/
def apply : Operation → Replica → Replica
  | insertUsers users, r => (Users.insert users r).2
  | insertMe user, r => (Users.insertMe user r).2
  | selectMe, r => (Users.selectMe r).2
  | selectUser id, r => (Users.select id r).2
  | selectUsers ids, r => (Users.selectMany ids r).2
  | directory ids, r => (Users.directory ids r).2
  | clearUsers, r => (Users.clear r).2
  | insertChannels channels, r => (Channels.insert channels r).2
  | selectChannel cid, r => (Channels.select cid r).2
  | selectChannels cids, r => (Channels.selectMany cids r).2
  | channelsByStatus status after limit, r => (Channels.byStatus status after limit r).2
  | channelKeysByStatus status, r => (Channels.keysByStatus status r).2
  | updateLastMessage cid message, r => (Channels.updateLastMessage cid message r).2
  | clearChannels, r => (Channels.clear r).2
  | insertMessages messages cached, r => (Messages.insert messages cached r).2
  | selectMessage id, r => (Messages.select id r).2
  | selectMessages ids, r => (Messages.selectMany ids r).2
  | messagesForChannel cid limit, r => (Messages.forChannel cid limit r).2
  | messagesByStatus status after limit, r => (Messages.byStatus status after limit r).2
  | clearMessages, r => (Messages.clear r).2
  | clearCaches, r => r.clearCaches
  | sendRequest message, r => (AttachmentSend.onRequest message r).2
  | sendResult classifier now message result, r =>
      (AttachmentSend.onResult classifier now message result r).2

/-- The call puts entities into caches and database that were not found there. -/
def inserts : Operation → Bool
  | insertUsers _ | insertMe _ | insertChannels _ | insertMessages _ _ | sendRequest _
  | sendResult _ _ _ _ => true
  | _ => false

/-- The call may write to caches or database other than by emptying them. -/
def writes : Operation → Bool
  | updateLastMessage _ _ => true
  | op => op.inserts

end Operation

/-- A circumstance under which a client works from now on. -/
inductive Circumstance (ρ : Type) where
  /-- The medium fails these calls. -/
  | medium (faults : StoreCall → Option StoreError)
  /-- The remote service is in this state. -/
  | service (remote : ρ)

/-- What happens to a client besides its passes. -/
inductive Outside (ρ : Type) where
  /-- The application uses the replica. -/
  | operation (op : Operation)
  | circumstance (change : Circumstance ρ)

namespace Client

variable {ρ : Type}

/-- The client under another circumstance. -/
def under : Circumstance ρ → Client ρ → Client ρ
  | .medium faults, c => { c with replica := { c.replica with faults } }
  | .service remote, c => { c with remote }

/-- The client after something has happened to it. -/
def outside : Outside ρ → Client ρ → Client ρ
  | .operation op, c => { c with replica := op.apply c.replica }
  | .circumstance change, c => c.under change

end Client

end OfflineChat
