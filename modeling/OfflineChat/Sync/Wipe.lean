import OfflineChat.Sync.Calls
import OfflineChat.Sync.Stages

/-! # Wiping a client while it is at work

The local data of a client is wiped in four steps, and between any two of them the calls for sync
passes, the operations of the application, the medium and the remote service may go on. A page of
messages is selected in two steps, as their users are looked up once their rows are there, and every
page is written back in two steps: it is filed, and a job puts it into the database, which is
carried out even if the call is dropped meanwhile. Main definitions: `WipeStep`; `HalfPage`, what a
call has in hand between two such steps; `Activity`, a client with all that is under way on it; and
`ClientAction` with `Activity.act` and `Activity.acts`. Main statement: the four steps together are
`Client.clearLocalData` (`WipeStep.foldl_all`). -/

set_option autoImplicit false

namespace OfflineChat

/-- A step of wiping local data. -/
inductive WipeStep where
  /-- Empties the cache of users. -/
  | users
  | messages
  | channels
  /-- Removes all rows, in one transaction. -/
  | rows
  deriving DecidableEq

namespace WipeStep

variable {ρ : Type}

/-- The steps in their order. -/
def all : List WipeStep := [users, messages, channels, rows]

/-- The replica after a step. -/
def apply : WipeStep → Replica → Replica
  | users, r => { r with users := r.users.clear }
  | messages, r => { r with messages := r.messages.clear }
  | channels, r => { r with channels := r.channels.clear }
  | rows, r => { r with database := r.database.clear.2 }

theorem foldl_all (c : Client ρ) :
    { c with replica := all.foldl (fun r step => step.apply r) c.replica } = c.clearLocalData.2 :=
  rfl

end WipeStep

/-- The entities that the next step of a pass writes back, if there are any: all answers of its page
are there. -/
def RetryPass.resolved? {ε : Type} [Syncable ε] (rules : SyncRules) :
    RetryPass ε → Option (List ε)
  | awaiting page _ =>
      match answers? page with
      | some (first :: more) => some ((resolveAll rules (first :: more)).map Outcome.entity)
      | _ => none
  | _ => none

/-- The batch that the next step of a call writes back, if there is one. -/
def SyncCall.writeBack? (rules : SyncRules) : SyncCall → Option Batch
  | channels pass => (pass.resolved? rules).map .channels
  | messages _ pass => (pass.resolved? rules).map (.messages · true)
  | _ => none

/-- The rows of messages that the next step of a call reads, if there are any, and the replica by
then. -/
def SyncCall.rows? (rules : SyncRules) (r : Replica) : SyncCall → Option (List Message × Replica)
  | messages _ (.selecting after report) =>
      if RetryPass.isExhausted rules report then none
      else
        match Replica.read (.messagesByStatus .syncNeeded after rules.limit)
            (fun db => db.messagesByStatus .syncNeeded after rules.limit) r with
        | (.ok (first :: more), r) => some (first :: more, r)
        | _ => none
  | _ => none

/-- A page in the hands of a call that waits for the database. -/
inductive HalfPage where
  /-- The rows of these messages were read, and their users are still to be looked up. -/
  | read (messages : List Message)
  /-- A batch was filed, and is still to be written. -/
  | filed (batch : Batch)

/-- What is left of the page if the call is dropped: a job that writes is carried out. -/
def HalfPage.leftover : HalfPage → List Stage
  | read _ => []
  | filed batch => [.put batch]

/-- The page that the next step of a call leaves half selected or half written back, if it leaves
one, and the replica by then. -/
def SyncCall.halfway? (rules : SyncRules) (r : Replica) (a : SyncCall) :
    Option (HalfPage × Replica) :=
  match a.rows? rules r with
  | some (stored, r) => some (.read stored, r)
  | none => (a.writeBack? rules).map fun batch => (.filed batch, batch.file r)

/-- A client with all that is under way on it. -/
structure Activity (ρ : Type) extends SyncCalls ρ where
  /-- What a call has in hand while it waits for the database. -/
  half : Nat → Option HalfPage
  /-- What is still to come of the operations of the application, and of writes that nobody waits
  for any more. -/
  tasks : List (List Stage)

/-- What can happen next to a client. -/
inductive ClientAction (ρ : Type) where
  /-- A call for a sync pass takes a step. -/
  | poll (i : Nat)
  /-- Such a call is given up. -/
  | drop (i : Nat)
  /-- The application calls for an operation. -/
  | call (op : Operation)
  /-- A task comes to its next stage. -/
  | advance (k : Nat)
  /-- A task is given up. -/
  | abandon (k : Nat)
  | change (circumstance : Circumstance ρ)
  /-- The next step of a wipe. -/
  | wipe (step : WipeStep)

namespace ClientAction

variable {ρ : Type}

/-- The step of a wipe that an action is. -/
def wipe? : ClientAction ρ → Option WipeStep
  | wipe step => some step
  | _ => none

/-- The operation that the application calls for. -/
def operation? : ClientAction ρ → Option Operation
  | call op => some op
  | _ => none

end ClientAction

namespace Activity

variable {ρ : Type}

/-- Nothing is under way. -/
def new (client : Client ρ) : Activity ρ := ⟨.new client, fun _ => none, []⟩

/-- The replica has changed. -/
def withReplica (s : Activity ρ) (replica : Replica) : Activity ρ :=
  { s with client := { s.client with replica } }

/-- A call now has this page in hand, or none. -/
def withHalf (s : Activity ρ) (i : Nat) (page : Option HalfPage) : Activity ρ :=
  { s with half := fun j => if j = i then page else s.half j }

/-- A call takes a step, with these exchanges and over this replica. -/
def proceed (s : Activity ρ) (i : Nat) (ofChannels : Exchange (Client ρ) Channel)
    (ofMessages : Exchange (Client ρ) Message) (rules : SyncRules) (replica : Replica) :
    Activity ρ :=
  let (a, client) := (s.call i).pollWith ofChannels ofMessages rules { s.client with replica }
  { s with toSyncCalls := s.toSyncCalls.withCall i a client }

/-- The other half: the users of a page of messages are looked up, or a batch is written, and the
call goes on with the result. -/
def resume (remote : Remote ρ) (rules : SyncRules) (s : Activity ρ) (i : Nat) :
    HalfPage → Activity ρ
  | .read messages =>
      let (result, replica) := Messages.hydrate messages s.client.replica
      s.proceed i (Client.channelExchange remote)
        { Client.messageExchange remote with select := fun _ _ c => (result, c) } rules replica
  | .filed batch =>
      let (result, replica) := batch.put s.client.replica
      s.proceed i { Client.channelExchange remote with write := fun _ c => (result, c) }
        { Client.messageExchange remote with write := fun _ c => (result, c) } rules replica

/-- One thing happens. -/
def act (remote : Remote ρ) (rules : SyncRules) (s : Activity ρ) : ClientAction ρ → Activity ρ
  | .poll i =>
      match s.half i, (s.call i).halfway? rules s.client.replica with
      | none, none => { s with toSyncCalls := s.toSyncCalls.step remote rules (.poll i) }
      | none, some (page, replica) => (s.withReplica replica).withHalf i (some page)
      | some page, _ => (s.resume remote rules i page).withHalf i none
  | .drop i =>
      { s.withHalf i none with
        toSyncCalls := s.toSyncCalls.step remote rules (.drop i)
        tasks := s.tasks ++ (s.half i).toList.map HalfPage.leftover }
  | .call op => { s with tasks := s.tasks ++ [op.stages] }
  | .advance k =>
      match s.tasks[k]? with
      | none => s
      | some task =>
          let (task, replica) := Stage.advance task s.client.replica
          { s.withReplica replica with tasks := s.tasks.set k task }
  | .abandon k =>
      match s.tasks[k]? with
      | none => s
      | some task => { s with tasks := s.tasks.set k (Stage.leftover task) }
  | .change circumstance => { s with client := s.client.under circumstance }
  | .wipe step => s.withReplica (step.apply s.client.replica)

/-- One thing happens after another. -/
def acts (remote : Remote ρ) (rules : SyncRules) (s : Activity ρ)
    (actions : List (ClientAction ρ)) : Activity ρ :=
  actions.foldl (act remote rules) s

end Activity

end OfflineChat
