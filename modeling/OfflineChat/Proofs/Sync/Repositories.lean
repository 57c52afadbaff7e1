import OfflineChat.Proofs.Repository.Hydration
import OfflineChat.Proofs.Sync.Backing
import OfflineChat.Sync.Service

/-! # The repositories behind the passes of a client

A pass over messages works on the messages of the replica, a pass over channels on its channels.
Main definitions: `Client.messageBacking` and `Client.channelBacking`. -/

set_option autoImplicit false

namespace OfflineChat

/-- A database without messages. -/
def Database.withoutMessages (db : Database) : Database := { db with messages := .empty }

/-- A database without channels. -/
def Database.withoutChannels (db : Database) : Database := { db with channels := .empty }

/-! ## Messages -/

namespace Messages

variable {status : SyncStatus} {after : Option String} {limit : Nat} {r r' : Replica}

theorem byStatus_ok {page : List Message} (h : byStatus status after limit r = (.ok page, r')) :
    (∃ stored, r.database.messagesByStatus status after limit = .ok stored ∧
      page = stored.map r.completed) ∧
      r'.database = r.database ∧ r.Alike r' := by
  unfold byStatus at h
  rw [Action.bind_apply] at h
  split at h
  · next stored s hread =>
    obtain ⟨hstored, rfl⟩ := Replica.read_ok hread
    obtain ⟨hpage, hdatabase, hsame⟩ := hydrate_ok h
    exact ⟨⟨stored, hstored, hpage⟩, hdatabase, (Replica.alike_noted r _).trans hsame⟩
  · exact absurd (congrArg Prod.fst h) (by simp)

theorem byStatus_error {e : StoreError} (h : byStatus status after limit r = (.error e, r')) :
    r'.database = r.database ∧ r.Alike r' := by
  unfold byStatus at h
  rw [Action.bind_apply] at h
  split at h
  · next stored s hread =>
    obtain ⟨_, rfl⟩ := Replica.read_ok hread
    obtain ⟨hdatabase, hsame⟩ := hydrate_error h
    exact ⟨hdatabase, (Replica.alike_noted r _).trans hsame⟩
  · next hread =>
    obtain rfl := Replica.read_error hread
    simp only [Prod.mk.injEq] at h
    obtain ⟨_, rfl⟩ := h
    exact ⟨rfl, Replica.alike_noted r _⟩

theorem insert_ok {messages : List Message} {cached : Bool}
    (h : insert messages cached r = (.ok (), r')) :
    r'.database = r.database.putMessages messages ∧ r.Alike r' := by
  unfold insert at h
  split at h
  · next hempty =>
    simp only [Action.pure_apply, Prod.mk.injEq] at h
    obtain ⟨_, rfl⟩ := h
    rw [List.isEmpty_iff.1 hempty]
    exact ⟨rfl, Replica.Alike.refl r⟩
  · simp only [Action.bind_apply, Action.modify_apply] at h
    obtain rfl := Replica.write_ok h
    exact ⟨rfl, rfl, rfl, rfl, rfl⟩

theorem insert_error {messages : List Message} {cached : Bool} {e : StoreError}
    (h : insert messages cached r = (.error e, r')) :
    r'.database = r.database ∧ r.Alike r' := by
  unfold insert at h
  split at h
  · exact absurd (congrArg Prod.fst h) (by simp)
  · simp only [Action.bind_apply, Action.modify_apply] at h
    obtain rfl := Replica.write_error h
    exact ⟨rfl, rfl, rfl, rfl, rfl⟩

theorem exists_byStatus (hf : r.IsFaultless) (hu : r.HasReadableUsers)
    (hr : ∀ row ∈ r.database.messages.withStatus Row.messageStatus status after,
      ∃ m, row.message = .ok m) :
    ∃ page r', byStatus status after limit r = (.ok page, r') := by
  obtain ⟨stored, hstored⟩ : ∃ stored,
      r.database.messagesByStatus status after limit = .ok stored :=
    Database.exists_readRows fun row hrow => hr row ((atMost_sublist _ _).subset hrow)
  unfold byStatus
  rw [Action.bind_apply_ok (Replica.read_of_unfaulted (hf _) hstored)]
  exact exists_hydrate stored hf hu

theorem exists_insert (messages : List Message) (cached : Bool) (hf : r.IsFaultless) :
    ∃ r', insert messages cached r = (.ok (), r') := by
  unfold insert
  split
  · exact ⟨_, rfl⟩
  · simp only [Action.bind_apply, Action.modify_apply]
    exact ⟨_, Replica.write_of_unfaulted (hf _)⟩

end Messages

/-! ## Channels -/

namespace Channels

variable {status : SyncStatus} {after : Option String} {limit : Nat} {r r' : Replica}

theorem byStatus_ok {page : List Channel} (h : byStatus status after limit r = (.ok page, r')) :
    r.database.channelsByStatus status after limit = .ok page ∧
      r'.database = r.database ∧ r.Alike r' := by
  obtain ⟨hpage, rfl⟩ := Replica.read_ok h
  exact ⟨hpage, rfl, r.alike_noted _⟩

theorem byStatus_error {e : StoreError} (h : byStatus status after limit r = (.error e, r')) :
    r'.database = r.database ∧ r.Alike r' := by
  obtain rfl := Replica.read_error h
  exact ⟨rfl, r.alike_noted _⟩

theorem exists_byStatus (hf : r.IsFaultless)
    (hr : ∀ row ∈ r.database.channels.withStatus Row.channelStatus status after,
      ∃ c, row.channel = .ok c) :
    ∃ page r', byStatus status after limit r = (.ok page, r') := by
  obtain ⟨page, hpage⟩ : ∃ page, r.database.channelsByStatus status after limit = .ok page :=
    Database.exists_readRows fun row hrow => hr row ((atMost_sublist _ _).subset hrow)
  exact ⟨page, _, Replica.read_of_unfaulted (hf _) hpage⟩

theorem insert_ok {channels : List Channel} (h : insert channels r = (.ok (), r')) :
    r'.database = r.database.putChannels channels ∧ r.Alike r' := by
  unfold insert at h
  split at h
  · next hempty =>
    simp only [Action.pure_apply, Prod.mk.injEq] at h
    obtain ⟨_, rfl⟩ := h
    rw [List.isEmpty_iff.1 hempty]
    exact ⟨rfl, Replica.Alike.refl r⟩
  · simp only [Action.bind_apply, Action.modify_apply] at h
    obtain rfl := Replica.write_ok h
    exact ⟨rfl, rfl, rfl, rfl, rfl⟩

theorem insert_error {channels : List Channel} {e : StoreError}
    (h : insert channels r = (.error e, r')) : r'.database = r.database ∧ r.Alike r' := by
  unfold insert at h
  split at h
  · exact absurd (congrArg Prod.fst h) (by simp)
  · simp only [Action.bind_apply, Action.modify_apply] at h
    obtain rfl := Replica.write_error h
    exact ⟨rfl, rfl, rfl, rfl, rfl⟩

theorem exists_insert (channels : List Channel) (hf : r.IsFaultless) :
    ∃ r', insert channels r = (.ok (), r') := by
  unfold insert
  split
  · exact ⟨_, rfl⟩
  · simp only [Action.bind_apply, Action.modify_apply]
    exact ⟨_, Replica.write_of_unfaulted (hf _)⟩

end Channels

/-! ## Backings -/

/-- The message that an event hands over. -/
def SyncEvent.sentMessage? : SyncEvent → Option Message
  | sentMessage m => some m
  | _ => none

/-- The channel that an event hands over. -/
def SyncEvent.updatedChannel? : SyncEvent → Option Channel
  | updatedChannel c => some c
  | _ => none

namespace Client

variable {ρ : Type}

theorem onReplica_apply {α : Type} {x : Action Replica α} {c c' : Client ρ}
    {result : Except StoreError α} (h : onReplica x c = (result, c')) :
    x c.replica = (result, c'.replica) ∧ c' = { c with replica := c'.replica } := by
  unfold onReplica Action.lift at h
  obtain ⟨rfl, rfl⟩ := Prod.mk.inj h
  exact ⟨rfl, rfl⟩

theorem exists_onReplica {α : Type} {x : Action Replica α} {c : Client ρ} {a : α} {r : Replica}
    (h : x c.replica = (.ok a, r)) : ∃ c', onReplica x c = (.ok a, c') := by
  unfold onReplica Action.lift
  rw [h]
  exact ⟨_, rfl⟩

/-- How a message is read, and what a pass over messages leaves as it is. -/
def messageFrame (r : Replica) : PassFrame Message where
  entity row := row.message.toOption.map r.completed
  others := r.database.withoutMessages
  reliable := r.IsFaultless ∧ r.HasReadableUsers

theorem messageFrame_congr {r r' : Replica} (h : r.Alike r')
    (hothers : r'.database.withoutMessages = r.database.withoutMessages) :
    messageFrame r' = messageFrame r := by
  unfold messageFrame Replica.IsFaultless Replica.HasReadableUsers
  rw [h.completed_eq, hothers, h.faults_eq, h.stored_eq]

/-- How a channel is read, and what a pass over channels leaves as it is. -/
def channelFrame (r : Replica) : PassFrame Channel where
  entity row := row.channel.toOption
  others := r.database.withoutChannels
  reliable := r.IsFaultless

theorem channelFrame_congr {r r' : Replica} (h : r.Alike r')
    (hothers : r'.database.withoutChannels = r.database.withoutChannels) :
    channelFrame r' = channelFrame r := by
  unfold channelFrame Replica.IsFaultless
  rw [hothers, h.faults_eq]

/-- What was read, row by row. -/
theorem map_some_of_readRows {α : Type} {read : Row → Except StoreError α} {rows : List Row}
    {as : List α} (h : Database.readRows read rows = .ok as) :
    as.map some = rows.map fun row => (read row).toOption := by
  have hmap := congrArg (List.map Except.toOption) (Database.readRows_eq_ok_iff.1 h)
  rw [List.map_map, List.map_map] at hmap
  exact hmap.symm

variable (remote : Remote ρ)

/-- The messages of the replica behind a pass over messages. -/
def messageBacking : Backing (messageExchange remote) ρ where
  rows c := c.replica.database.messages
  remote c := c.remote
  handed c := c.events.filterMap SyncEvent.sentMessage?
  frame c := messageFrame c.replica
  send := remote.sendMessage
  statusCell := Row.messageStatus
  toRow := Message.toRow
  key_toRow _ := rfl
  status_toRow _ := rfl
  key_entity {c row m} h := by
    obtain ⟨stored, hstored, rfl⟩ := Option.map_eq_some_iff.1 h
    have hkey : key stored = key row := Row.key_of_message (toOption_eq_some_iff.1 hstored)
    exact hkey
  status_entity {c row m status} h hs := by
    obtain ⟨stored, hstored, rfl⟩ := Option.map_eq_some_iff.1 h
    have hstatus : stored.syncStatus = status :=
      Row.status_of_message (toOption_eq_some_iff.1 hstored) hs
    exact hstatus
  select_ok {after limit c page c'} h := by
    obtain ⟨hr, hc⟩ := onReplica_apply h
    obtain ⟨⟨stored, hstored, rfl⟩, hdatabase, halike⟩ := Messages.byStatus_ok hr
    have hread := congrArg (List.map (Option.map c.replica.completed))
      (map_some_of_readRows hstored)
    rw [List.map_map, List.map_map] at hread
    have hdb := congrArg Database.messages hdatabase
    have hframe := messageFrame_congr halike (congrArg Database.withoutMessages hdatabase)
    rw [hc]
    refine ⟨?_, hdb, rfl, rfl, hframe⟩
    rw [List.map_map]
    exact hread
  select_error {after limit c e c'} h := by
    obtain ⟨hr, hc⟩ := onReplica_apply h
    obtain ⟨hdatabase, halike⟩ := Messages.byStatus_error hr
    have hdb := congrArg Database.messages hdatabase
    have hframe := messageFrame_congr halike (congrArg Database.withoutMessages hdatabase)
    rw [hc]
    exact ⟨hdb, rfl, rfl, hframe⟩
  select_total {after limit c} hreliable hread := by
    obtain ⟨page, r, h⟩ := Messages.exists_byStatus hreliable.1 hreliable.2
      fun row hrow => by
        obtain ⟨m, hm⟩ := Option.isSome_iff_exists.1 (hread row hrow)
        obtain ⟨stored, hstored, _⟩ := Option.map_eq_some_iff.1 hm
        exact ⟨stored, toOption_eq_some_iff.1 hstored⟩
    exact ⟨page, exists_onReplica h⟩
  submit_spec m c := ⟨rfl, rfl, rfl, rfl, rfl⟩
  write_ok {messages c c'} h := by
    obtain ⟨hr, hc⟩ := onReplica_apply h
    obtain ⟨hdatabase, halike⟩ := Messages.insert_ok hr
    have hdb := congrArg Database.messages hdatabase
    have hframe := messageFrame_congr halike (by rw [hdatabase]; rfl)
    rw [hc]
    exact ⟨hdb, rfl, rfl, hframe⟩
  write_error {messages e c c'} h := by
    obtain ⟨hr, hc⟩ := onReplica_apply h
    obtain ⟨hdatabase, halike⟩ := Messages.insert_error hr
    have hdb := congrArg Database.messages hdatabase
    have hframe := messageFrame_congr halike (congrArg Database.withoutMessages hdatabase)
    rw [hc]
    exact ⟨hdb, rfl, rfl, hframe⟩
  write_total {messages c} hreliable := by
    obtain ⟨r, h⟩ := Messages.exists_insert messages true hreliable.1
    exact exists_onReplica h

/-- The channels of the replica behind a pass over channels. -/
def channelBacking : Backing (channelExchange remote) ρ where
  rows c := c.replica.database.channels
  remote c := c.remote
  handed c := c.events.filterMap SyncEvent.updatedChannel?
  frame c := channelFrame c.replica
  send := remote.updateChannel
  statusCell := Row.channelStatus
  toRow := Channel.toRow
  key_toRow _ := rfl
  status_toRow _ := rfl
  key_entity h := Row.key_of_channel (toOption_eq_some_iff.1 h)
  status_entity h hs := Row.status_of_channel (toOption_eq_some_iff.1 h) hs
  select_ok {after limit c page c'} h := by
    obtain ⟨hr, hc⟩ := onReplica_apply h
    obtain ⟨hpage, hdatabase, halike⟩ := Channels.byStatus_ok hr
    have hdb := congrArg Database.channels hdatabase
    have hframe := channelFrame_congr halike (congrArg Database.withoutChannels hdatabase)
    rw [hc]
    exact ⟨map_some_of_readRows hpage, hdb, rfl, rfl, hframe⟩
  select_error {after limit c e c'} h := by
    obtain ⟨hr, hc⟩ := onReplica_apply h
    obtain ⟨hdatabase, halike⟩ := Channels.byStatus_error hr
    have hdb := congrArg Database.channels hdatabase
    have hframe := channelFrame_congr halike (congrArg Database.withoutChannels hdatabase)
    rw [hc]
    exact ⟨hdb, rfl, rfl, hframe⟩
  select_total {after limit c} hreliable hread := by
    obtain ⟨page, r, h⟩ := Channels.exists_byStatus hreliable fun row hrow => by
      obtain ⟨channel, hchannel⟩ := Option.isSome_iff_exists.1 (hread row hrow)
      exact ⟨channel, toOption_eq_some_iff.1 hchannel⟩
    exact ⟨page, exists_onReplica h⟩
  submit_spec channel c := ⟨rfl, rfl, rfl, rfl, rfl⟩
  write_ok {channels c c'} h := by
    obtain ⟨hr, hc⟩ := onReplica_apply h
    obtain ⟨hdatabase, halike⟩ := Channels.insert_ok hr
    have hdb := congrArg Database.channels hdatabase
    have hframe := channelFrame_congr halike (by rw [hdatabase]; rfl)
    rw [hc]
    exact ⟨hdb, rfl, rfl, hframe⟩
  write_error {channels e c c'} h := by
    obtain ⟨hr, hc⟩ := onReplica_apply h
    obtain ⟨hdatabase, halike⟩ := Channels.insert_error hr
    have hdb := congrArg Database.channels hdatabase
    have hframe := channelFrame_congr halike (congrArg Database.withoutChannels hdatabase)
    rw [hc]
    exact ⟨hdb, rfl, rfl, hframe⟩
  write_total {channels c} hreliable := by
    obtain ⟨r, h⟩ := Channels.exists_insert channels hreliable
    exact exists_onReplica h

end Client

end OfflineChat
