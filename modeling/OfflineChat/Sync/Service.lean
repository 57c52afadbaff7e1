import OfflineChat.Repository.Channels
import OfflineChat.Repository.Messages
import OfflineChat.Sync.Retry

/-! # Sync passes

A sync pass submits the waiting channels and then the waiting messages. Only one pass runs at a
time, and its progress is published. Main definitions: `Client`, a replica with its remote service
and the published state; `SyncPass`, a pass between two of its steps, with `start`, `step` and
`drop`; `Client.sync` and `Client.syncEvery`, which run passes. -/

set_option autoImplicit false

namespace OfflineChat

/-- The remote service with its own state. It may leave a submission unanswered. -/
structure Remote (ρ : Type) where
  sendMessage : Message → ρ → Option (Answer Message) × ρ
  updateChannel : Channel → ρ → Option (Answer Channel) × ρ

/-- What a pass is at. -/
inductive SyncPhase where
  | channels
  | messages
  deriving DecidableEq

/-- What a sync pass has done. -/
structure SyncReport where
  channels : RetryReport
  messages : RetryReport
  deriving DecidableEq

/-- The progress that is published. -/
inductive SyncState where
  | idle
  | running (phase : SyncPhase)
  | completed (report : SyncReport)
  | failed (error : String)
  deriving DecidableEq

/-- What an observer of a client sees: published states, and entities handed to the remote
service. -/
inductive SyncEvent where
  | published (state : SyncState)
  | sentMessage (message : Message)
  | updatedChannel (channel : Channel)

/-- A client: its replica, the state of its remote service and the state it has published. -/
structure Client (ρ : Type) where
  replica : Replica
  remote : ρ
  state : SyncState
  /-- A pass is running. -/
  busy : Bool
  /-- All events, last first. -/
  events : List SyncEvent

namespace Client

variable {ρ : Type}

/-- A client on which nothing has happened. -/
def new (replica : Replica) (remote : ρ) : Client ρ := ⟨replica, remote, .idle, false, []⟩

/-- Publishes a state. -/
def publish (c : Client ρ) (state : SyncState) : Client ρ :=
  { c with state, events := .published state :: c.events }

/-- An action on the replica. -/
def onReplica {α : Type} (x : Action Replica α) : Action (Client ρ) α :=
  .lift Client.replica (fun c replica => { c with replica }) x

/-- The waiting channels, the remote service and the replica, for a pass over channels. -/
def channelExchange (remote : Remote ρ) : Exchange (Client ρ) Channel where
  select after limit := onReplica (Channels.byStatus .syncNeeded after limit)
  submit channel c :=
    let (answer, state) := remote.updateChannel channel c.remote
    (answer, { c with remote := state, events := .updatedChannel channel :: c.events })
  write channels := onReplica (Channels.insert channels)

/-- The waiting messages, the remote service and the replica, for a pass over messages. -/
def messageExchange (remote : Remote ρ) : Exchange (Client ρ) Message where
  select after limit := onReplica (Messages.byStatus .syncNeeded after limit)
  submit message c :=
    let (answer, state) := remote.sendMessage message c.remote
    (answer, { c with remote := state, events := .sentMessage message :: c.events })
  write messages := onReplica (Messages.insert messages true)

end Client

/-- A sync pass between two of its steps. A pass that found another one running has ended without a
report. -/
inductive SyncPass where
  | channels (pass : RetryPass Channel)
  | messages (channels : RetryReport) (pass : RetryPass Message)
  | finished (result : Except StoreError (Option SyncReport))

namespace SyncPass

variable {ρ : Type}

/-- A pass ends with a failure, which is published. -/
def fail (e : StoreError) (c : Client ρ) : SyncPass × Client ρ :=
  (finished (.error e), { c.publish (.failed e.report) with busy := false })

/-- A pass ends with a report, which is published. -/
def complete (report : SyncReport) (c : Client ρ) : SyncPass × Client ρ :=
  (finished (.ok (some report)), { c.publish (.completed report) with busy := false })

/-- Starts a pass, unless one is running. -/
def start (c : Client ρ) : SyncPass × Client ρ :=
  if c.busy then (finished (.ok none), c)
  else (channels .start, { c.publish (.running .channels) with busy := true })

/-- The next step: of the pass over channels, then of the pass over messages. -/
def step (remote : Remote ρ) (rules : SyncRules) : SyncPass → Client ρ → SyncPass × Client ρ
  | channels pass, c =>
      match pass.step (Client.channelExchange remote) rules c with
      -- the channels are through: the messages follow in the same pass
      | (.finished (.ok report), c) => (messages report .start, c.publish (.running .messages))
      | (.finished (.error e), c) => fail e c
      | (pass, c) => (channels pass, c)
  | messages report pass, c =>
      match pass.step (Client.messageExchange remote) rules c with
      | (.finished (.ok report'), c) => complete ⟨report, report'⟩ c
      | (.finished (.error e), c) => fail e c
      | (pass, c) => (messages report pass, c)
  | finished result, c => (finished result, c)

/-- Gives a pass up. A pass that has not ended leaves the client idle. -/
def drop : SyncPass → Client ρ → Client ρ
  | finished _, c => c
  -- submissions that are still unanswered are forgotten; their entities wait for the next pass
  | _, c => { c.publish .idle with busy := false }

/-- Takes `n` steps. -/
def run (remote : Remote ρ) (rules : SyncRules) :
    Nat → SyncPass → Client ρ → SyncPass × Client ρ
  | 0, p, c => (p, c)
  | n + 1, p, c =>
      let (p, c) := step remote rules p c
      run remote rules n p c

/-- A pass has nothing to wait for: it may have no pages, or the medium fails its first call, which
then does not get as far as the database. -/
def neverWaits (rules : SyncRules) (r : Replica) : Bool :=
  RetryPass.isExhausted rules .empty ||
    (r.faults (.channelsByStatus .syncNeeded none rules.limit)).isSome

/-- Starts a pass and takes it to where it first waits for the database. -/
def launch (remote : Remote ρ) (rules : SyncRules) (c : Client ρ) : SyncPass × Client ρ :=
  let (pass, c) := start c
  -- one step for the channels, one for the messages
  if neverWaits rules c.replica then pass.run remote rules 2 c else (pass, c)

/-- Enough steps to end a pass over a replica. -/
def steps (r : Replica) : Nat :=
  RetryPass.steps r.database.channels.size + RetryPass.steps r.database.messages.size

end SyncPass

namespace Client

variable {ρ : Type}

/-- A sync pass: its result, or `none` if the remote service leaves it waiting for an answer; then
the pass is still running. -/
def sync (remote : Remote ρ) (rules : SyncRules) (c : Client ρ) :
    SyncPass × Client ρ :=
  let (pass, c') := SyncPass.start c
  pass.run remote rules (SyncPass.steps c.replica) c'

/-- As many passes launched one after another as there are; the first one goes on when all have been
launched. -/
def syncTogether (remote : Remote ρ) (rules : SyncRules) (count : Nat) (c : Client ρ) :
    List SyncPass × Client ρ :=
  match count with
  | 0 => ([], c)
  | count + 1 =>
      let (first, c') := SyncPass.launch remote rules c
      let (others, c') := (List.range count).foldl
        (fun (others, c) _ =>
          let (pass, c) := SyncPass.launch remote rules c
          (others ++ [pass], c))
        ([], c')
      let (first, c') := first.run remote rules (SyncPass.steps c.replica) c'
      (first :: others, c')

/-- A sync pass that is given up when it waits for an answer. -/
def syncOrDrop (remote : Remote ρ) (rules : SyncRules) (c : Client ρ) : SyncPass × Client ρ :=
  let (pass, c) := c.sync remote rules
  (pass, pass.drop c)

/-- The longest time between regular passes: thirty years of 365 days, in milliseconds. -/
def longestPeriod : Nat := 946_080_000_000

/-- Sync passes at regular times, the first one at once, at most `passes` of them, until one waits
for an answer and is given up: the time of that pass since the start. A period of 0 counts as 1, and
one above the longest period as that. -/
def syncEvery (remote : Remote ρ) (rules : SyncRules) (period : Nat) :
    Nat → Nat → Client ρ → Option Nat × Client ρ
  | 0, _, c => (none, c)
  | passes + 1, elapsed, c =>
      match c.syncOrDrop remote rules with
      | (.finished _, c) =>
          syncEvery remote rules period passes (elapsed + min (max period 1) longestPeriod) c
      | (_, c) => (some elapsed, c)

/-- Empties caches and database; gives the number of rows removed. -/
def clearLocalData (c : Client ρ) : Nat × Client ρ :=
  let replica := c.replica.clearCaches
  let (removed, database) := replica.database.clear
  (removed, { c with replica := { replica with database } })

end Client

end OfflineChat
