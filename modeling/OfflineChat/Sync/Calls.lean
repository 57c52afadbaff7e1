import OfflineChat.Sync.Service

/-! # Calls for a sync pass

Any number of calls ask one client for a sync pass, and their steps interleave with one another and
with everything else that happens to replica and remote service. A call takes the lock of the client
or gives up at once. Beside the lock it holds a guard, which publishes that the client is idle
unless it was told that the pass is over; the guard is let go of before the lock, at the end of the
call and when the call is dropped. Main definitions: `SyncCall`, a call between two of its steps,
with `SyncCall.poll` and `SyncCall.drop`, and `SyncCalls`, all calls of a client, with `step` and
`run`. -/

set_option autoImplicit false

namespace OfflineChat

/-- A call for a sync pass between two of its steps. The later ones keep what the pass over the
channels reported, if it got that far. -/
inductive SyncCall where
  /-- Nothing has happened yet. -/
  | ready
  /-- The call has found another pass running and has returned without a report. -/
  | skipped
  /-- The call was dropped before its first step. -/
  | discarded
  /-- The call has the lock. -/
  | locked
  /-- And it has the guard. -/
  | guarded
  | channels (pass : RetryPass Channel)
  /-- The pass over the channels is through. -/
  | between (channels : RetryReport)
  | messages (channels : RetryReport) (pass : RetryPass Message)
  /-- The pass has ended. -/
  | ended (channels : Option RetryReport) (result : Except StoreError SyncReport)
  /-- The guard was told so. -/
  | settled (channels : Option RetryReport) (result : Except StoreError SyncReport)
  /-- The result is published. -/
  | published (channels : Option RetryReport) (result : Except StoreError SyncReport)
  /-- The guard is gone. -/
  | unguarded (channels : Option RetryReport) (result : Except StoreError SyncReport)
  /-- The lock is gone, too. -/
  | returned (channels : Option RetryReport) (result : Except StoreError SyncReport)
  /-- The call is being dropped while its pass waits, and still has guard and lock. -/
  | cancelled (channels : Option RetryReport)
  /-- It has the lock only. -/
  | released (channels : Option RetryReport)
  | dropped (channels : Option RetryReport)

namespace SyncCall

variable {ρ : Type}

/-- Lets go of the guard. -/
def unguard (toldOver : Bool) (c : Client ρ) : Client ρ := if toldOver then c else c.publish .idle

/-- The state that is published at the end of a pass. -/
def finalState : Except StoreError SyncReport → SyncState
  | .ok report => .completed report
  | .error e => .failed e.report

/-- The next step of a call whose two passes go through these exchanges. A call that has returned or
was dropped stays where it is. -/
def pollWith (ofChannels : Exchange (Client ρ) Channel) (ofMessages : Exchange (Client ρ) Message)
    (rules : SyncRules) : SyncCall → Client ρ → SyncCall × Client ρ
  | ready, c => if c.busy then (skipped, c) else (locked, { c with busy := true })
  | locked, c => (guarded, c)
  | guarded, c => (channels .start, c.publish (.running .channels))
  | channels pass, c =>
      match pass.step ofChannels rules c with
      | (.finished (.ok report), c) => (between report, c)
      | (.finished (.error e), c) => (ended none (.error e), c)
      | (pass, c) => (channels pass, c)
  | between report, c => (messages report .start, c.publish (.running .messages))
  | messages report pass, c =>
      match pass.step ofMessages rules c with
      | (.finished (.ok report'), c) => (ended (some report) (.ok ⟨report, report'⟩), c)
      | (.finished (.error e), c) => (ended (some report) (.error e), c)
      | (pass, c) => (messages report pass, c)
  | ended report result, c => (settled report result, c)
  | settled report result, c => (published report result, c.publish (finalState result))
  | published report result, c => (unguarded report result, unguard true c)
  | unguarded report result, c => (returned report result, { c with busy := false })
  | cancelled report, c => (released report, unguard false c)
  | released report, c => (dropped report, { c with busy := false })
  | a, c => (a, c)

/-- The next step of a call. -/
def poll (remote : Remote ρ) (rules : SyncRules) : SyncCall → Client ρ → SyncCall × Client ρ :=
  pollWith (Client.channelExchange remote) (Client.messageExchange remote) rules

/-- What is left of a call when it is given up. It waits only during the two passes and before its
first step; elsewhere it cannot be given up. A page that the database was writing for it is written
all the same, as by any other user of the replica. -/
def drop : SyncCall → SyncCall
  | ready => discarded
  | channels _ => cancelled none
  | messages report _ => cancelled (some report)
  | a => a

/-- Takes `n` steps. -/
def polls (remote : Remote ρ) (rules : SyncRules) :
    Nat → SyncCall → Client ρ → SyncCall × Client ρ
  | 0, a, c => (a, c)
  | n + 1, a, c =>
      let (a, c) := poll remote rules a c
      polls remote rules n a c

/-- What the call gives back, once it has returned. -/
def result? : SyncCall → Option (Except StoreError (Option SyncReport))
  | skipped => some (.ok none)
  | returned _ result => some (result.map some)
  | _ => none

end SyncCall

/-- A client and the calls made for its passes, by number. A call that was not made yet stands
ready. -/
structure SyncCalls (ρ : Type) where
  client : Client ρ
  call : Nat → SyncCall

/-- What can happen next. -/
inductive SyncAction (ρ : Type) where
  /-- A call takes a step. -/
  | poll (i : Nat)
  /-- A call is given up. -/
  | drop (i : Nat)
  /-- Others use the replica, its medium and the remote service. -/
  | others (replica : Replica) (remote : ρ)

namespace SyncCalls

variable {ρ : Type}

/-- No call has been made. -/
def new (client : Client ρ) : SyncCalls ρ := ⟨client, fun _ => .ready⟩

/-- One call and the client have changed. -/
def withCall (s : SyncCalls ρ) (i : Nat) (a : SyncCall) (client : Client ρ) : SyncCalls ρ :=
  ⟨client, fun j => if j = i then a else s.call j⟩

/-- One thing happens. -/
def step (remote : Remote ρ) (rules : SyncRules) (s : SyncCalls ρ) : SyncAction ρ → SyncCalls ρ
  | .poll i =>
      let (a, client) := (s.call i).poll remote rules s.client
      s.withCall i a client
  | .drop i => s.withCall i (s.call i).drop s.client
  | .others replica state => { s with client := { s.client with replica, remote := state } }

/-- One thing happens after another. -/
def run (remote : Remote ρ) (rules : SyncRules) (s : SyncCalls ρ) (actions : List (SyncAction ρ)) :
    SyncCalls ρ :=
  actions.foldl (step remote rules) s

end SyncCalls

end OfflineChat
