import OfflineChat.Sync.Operation

/-! # Operations in stages

An operation of the application does not happen at once. It looks at the caches and changes them in
passing, but every access to the database is a job of its own: others come between the operation and
its job, and a write that has begun is carried out even if the operation is given up meanwhile. Main
definitions: `Batch`, entities to be written, which are filed first and put into the database after
that; `Stage`, what an operation does without being interrupted, with `Stage.run`;
`Operation.stages`; and `Stage.advance` and `Stage.leftover` for a list of stages that are still to
come. -/

set_option autoImplicit false

namespace OfflineChat

/-- Entities that are written together. -/
inductive Batch where
  | users (users : List User)
  | channels (channels : List Channel)
  /-- The messages are filed in the cache, or taken out of it. -/
  | messages (messages : List Message) (cached : Bool)

namespace Batch

def isEmpty : Batch → Bool
  | users es => es.isEmpty
  | channels es => es.isEmpty
  | messages es _ => es.isEmpty

/-- What becomes of the caches. -/
def file : Batch → Replica → Replica
  | users es, r => { r with users := r.users.putAll es }
  | channels es, r => { r with channels := r.channels.putAll es }
  | messages es cached, r =>
      { r with
        messages :=
          if cached then r.messages.putAll es else r.messages.removeAll (es.map Message.id) }

/-- The job that writes the entities to the database. -/
def put : Batch → Action Replica Unit
  | users es => Replica.write (.putUsers (es.map User.id)) fun db => db.putUsers es
  | channels es => Replica.write (.putChannels (es.map Channel.cid)) fun db => db.putChannels es
  | messages es _ => Replica.write (.putMessages (es.map Message.id)) fun db => db.putMessages es

end Batch

/-- What an operation does without being interrupted: it looks at the caches or changes them, or it
is a job of the database. -/
inductive Stage where
  /-- The caches are told of a batch. -/
  | file (batch : Batch)
  /-- A job writes it. -/
  | put (batch : Batch)
  | putMe (user : User)
  /-- The channel of a message is looked up in the cache. -/
  | find (cid : String) (message : Message)
  /-- A job looks it up in the database. -/
  | read (cid : String) (message : Message)
  /-- The channel was found; the message may become its last one. -/
  | overtake (channel : Channel) (message : Message)
  /-- An operation that writes no entities; as it fills nothing, its stages make no difference. -/
  | whole (op : Operation)

namespace Stage

/-- The stages in which a batch is written; there are none for an empty one. -/
def insert (batch : Batch) : List Stage := if batch.isEmpty then [] else [file batch, put batch]

/-- Carries a stage out and gives the stages that it leads to. -/
def run : Stage → Action Replica (List Stage)
  | file batch => do
      .modify batch.file
      return []
  | put batch => do
      batch.put
      return []
  | putMe user => do
      Users.insertMe user
      return []
  | find cid message => do
      let cached ← .update fun r =>
        let (channel, channels) := r.channels.get? cid
        (channel, { r with channels })
      match cached with
      | some channel => return [overtake channel message]
      | none => return [read cid message]
  | read cid message => do
      let stored ← Replica.read (.channel cid) fun db => db.channel? cid
      return (stored.map fun channel => overtake channel message).toList
  | overtake channel message =>
      match message.effectiveCreatedAt with
      | some time =>
          if channel.isOvertakenAt time then
            return insert (.channels [channel.withLastMessage message.id time])
          else return []
      | none => return []
  | whole op => do
      .modify op.apply
      return []

/-- The next stage of an operation, which ends with the first failure. -/
def advance : List Stage → Replica → List Stage × Replica
  | [], r => ([], r)
  | stage :: task, r =>
      match stage.run r with
      | (.ok more, r) => (more ++ task, r)
      | (.error _, r) => ([], r)

/-- So many stages. -/
def advances : Nat → List Stage → Replica → List Stage × Replica
  | 0, task, r => (task, r)
  | n + 1, task, r =>
      let (task, r) := advance task r
      advances n task r

/-- What is left of an operation that is given up: the write that it waits for, if it waits for
one. -/
def leftover : List Stage → List Stage
  | put batch :: _ => [put batch]
  | putMe user :: _ => [putMe user]
  | _ => []

/-- There are entities in hand that the stage writes, or may write. -/
def holds : Stage → Bool
  | file _ | put _ | putMe _ | overtake _ _ => true
  | find _ _ | read _ _ => false
  | whole op => op.writes

end Stage

/-- The stages of an operation. -/
def Operation.stages : Operation → List Stage
  | insertUsers users => Stage.insert (.users users)
  | insertMe user => [.putMe user]
  | insertChannels channels => Stage.insert (.channels channels)
  | insertMessages messages cached => Stage.insert (.messages messages cached)
  | updateLastMessage cid message => [.find cid message]
  | sendRequest message => Stage.insert (.messages [message] true) ++ [.find message.cid message]
  | sendResult _ _ _ (.ok _) => []
  | sendResult classifier now message (.error error) =>
      let failed := message.afterFailedSend classifier now error
      Stage.insert (.users failed.users) ++ Stage.insert (.messages [failed] false)
  | op => [.whole op]

end OfflineChat
