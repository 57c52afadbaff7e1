import Mathlib.Algebra.GroupWithZero.Nat
import OfflineChat.Proofs.Repository.LookUps
import OfflineChat.Proofs.Store.History
import OfflineChat.Proofs.Tool.RetryAccount

/-! # The commands `read` and `read-cids`

The channels are listed status after status, each with its newest messages; a second command lists
their keys only. Main definitions: `IsListing` and `channelText`, what a listing holds and how it is
printed; `IsGrouping` and `groupText`, the same of the keys; `Session.Writes`, for actions that do
nothing but print; and `Tool.Prints`, for whole runs. Main statement: every channel is listed once,
whatever has been written (`Tool.read_lists`). -/

set_option autoImplicit false

namespace OfflineChat

open OfflineChat.Action

/-! ## What is listed -/

/-- The place of a status in listings. -/
def SyncStatus.place : SyncStatus → Nat
  | syncNeeded => 0
  | inProgress => 1
  | awaitingAttachments => 2
  | completed => 3
  | failedPermanently => 4

/-- One channel is listed before another: by the places of their statuses, then by their keys. -/
def Channel.ListedBefore (a b : Channel) : Prop :=
  a.syncStatus.place < b.syncStatus.place ∨
    a.syncStatus = b.syncStatus ∧ Text.bytes a.cid < Text.bytes b.cid

/-- The newest messages of a history, as many as the limit says. A limit that a signed word of 64
bits cannot hold is none. -/
structure IsFront (limit : Nat) (history messages : List Message) : Prop where
  take_eq : limit < 0x8000_0000_0000_0000 ∨ history.length ≤ limit →
    messages = history.take (min limit history.length)
  all_eq : 0x8000_0000_0000_0000 ≤ limit → messages = history

/-- A channel, and the messages that are listed under it. -/
structure ListedChannel where
  channel : Channel
  messages : List Message

/-- All channels that were written last under their keys are listed, each once and in order, with
their newest messages. -/
structure IsListing (w : Written) (limit : Nat) (listing : List ListedChannel) : Prop where
  mem_iff : ∀ c, c ∈ listing.map ListedChannel.channel ↔ lastOfKey w.channels c.cid = some c
  once : (listing.map fun entry => entry.channel.cid).Nodup
  ordered : listing.Pairwise fun a b => a.channel.ListedBefore b.channel
  messages : ∀ entry ∈ listing, ∃ history,
    IsHistory w.messages entry.channel.cid history ∧ IsFront limit history entry.messages
  /-- A message without a channel is listed nowhere. -/
  orphans : ∀ m, lastOfKey w.channels m.cid = none → ∀ entry ∈ listing, m ∉ entry.messages

/-- The name of the author of a message, as the author was written last, else the id. -/
def Written.authorName (w : Written) (m : Message) : String :=
  ((lastOfKey w.users m.user.id).bind fun record => record.user.name).getD m.user.id

/-- What is printed of a message: a line, and another one if there is a reason of a failure. -/
def messageText (w : Written) (m : Message) : List String :=
  let line := "  " ++ m.syncStatus.label ++ " " ++ Session.padded 24 m.id ++ " "
    ++ w.authorName m ++ ": " ++ m.text
  match m.syncDescription with
  | some reason => [line, "      ! " ++ reason]
  | none => [line]

/-- What is printed of a channel, with its own status, and of the messages under it. -/
def channelText (w : Written) (entry : ListedChannel) : List String :=
  (entry.channel.cid ++ " [" ++ entry.channel.syncStatus.label ++ "]")
    :: entry.messages.flatMap (messageText w)

/-- Each status that has channels is there with all of them. -/
structure IsGrouping (w : Written) (groups : List (SyncStatus × List Channel)) : Prop where
  mem_iff : ∀ c, (∃ group ∈ groups, c ∈ group.2) ↔ lastOfKey w.channels c.cid = some c
  selection : ∀ group ∈ groups, IsSelection w.channels (fun c => c.syncStatus = group.1) group.2
  nonempty : ∀ group ∈ groups, group.2 ≠ []
  ordered : groups.Pairwise fun a b => a.1.place < b.1.place

/-- What is printed of a status: the number of its channels, and their keys. -/
def groupText (group : SyncStatus × List Channel) : List String :=
  (group.1.label ++ s!" ({group.2.length})") :: group.2.map fun c => "  " ++ c.cid

/-! ## What is read of rows that were written -/

/-- The name of a user is read as it was written. -/
theorem Row.name_of_userRecord {r r' : UserRecord} (h : r.toRow.userRecord = .ok r') :
    r'.user.name = r.user.name := by
  unfold userRecord at h
  iterate 2 obtain ⟨_, _, h⟩ := bind_eq_ok_iff.1 h
  obtain ⟨name, hname, h⟩ := bind_eq_ok_iff.1 h
  iterate 9 obtain ⟨_, _, h⟩ := bind_eq_ok_iff.1 h
  rw [text?_of_cell rfl] at hname
  rw [← Except.ok.inj h]
  exact (Except.ok.inj hname).symm

/-- Of a message that was written the fields that are listed are read as they were written. -/
theorem Row.listed_of_message {m m' : Message} (h : m.toRow.message = .ok m') :
    m'.id = m.id ∧ m'.user = .new m.user.id ∧ m'.text = m.text ∧
      m'.syncStatus = m.syncStatus ∧ m'.syncDescription = m.syncDescription := by
  have hid : key m' = key m.toRow := key_of_message h
  have hstatus : m'.syncStatus = m.syncStatus := status_of_message h rfl
  unfold message at h
  obtain ⟨userId, huser, h⟩ := bind_eq_ok_iff.1 h
  iterate 3 obtain ⟨_, _, h⟩ := bind_eq_ok_iff.1 h
  obtain ⟨text, htext, h⟩ := bind_eq_ok_iff.1 h
  iterate 8 obtain ⟨_, _, h⟩ := bind_eq_ok_iff.1 h
  obtain ⟨reason, hreason, h⟩ := bind_eq_ok_iff.1 h
  rw [text_of_cell rfl] at huser htext
  rw [text?_of_cell rfl] at hreason
  obtain rfl := Except.ok.inj huser
  obtain rfl := Except.ok.inj htext
  obtain rfl := Except.ok.inj hreason
  have hfields := Except.ok.inj h
  refine ⟨hid, ?_, ?_, hstatus, ?_⟩
  all_goals rw [← hfields]

namespace Database

variable {db : Database} {w : Written}

/-- A query finds the front of the history, as far as it can be read. -/
theorem exists_messagesForChannel {cid : String} {history : List Message}
    (hrows : (db.messages.rows.filter fun r => r.messageChannel == .text cid).mergeSort
      Row.newerFirst = history.map Message.toRow)
    (hread : ∀ r ∈ db.messages.rows, ∃ m, r.message = .ok m) (limit : Nat) :
    ∃ stored, db.messagesForChannel cid limit = .ok stored ∧
      List.Forall₂ (fun m m' => m.toRow.message = .ok m') (atMost limit history) stored := by
  obtain ⟨stored, hstored⟩ : ∃ stored, db.messagesForChannel cid limit = .ok stored := by
    refine exists_readRows fun r hr => hread r ?_
    have hsorted := (atMost_sublist limit _).subset hr
    exact (List.mem_filter.1 (List.mem_mergeSort.1 hsorted)).1
  refine ⟨stored, hstored, ?_⟩
  rw [messagesForChannel, hrows, atMost_map, readRows_eq_ok_iff, List.map_map,
    ← List.forall₂_eq_eq_eq, List.forall₂_map_left_iff, List.forall₂_map_right_iff] at hstored
  exact hstored

/-- The front of a history is what a query may give at most. -/
theorem isFront_atMost (limit : Nat) (history : List Message) :
    IsFront limit history (atMost limit history) where
  take_eq hlimit := by
    unfold atMost
    split
    · exact List.take_eq_take_min
    · next hlarge =>
      have hall : history.length ≤ limit := hlimit.resolve_left hlarge
      rw [Nat.min_eq_right hall, List.take_length]
  all_eq hlimit := by
    unfold atMost
    rw [if_neg (by omega)]

end Database

/-! ## Channels by status -/

section

variable {w : Written} {found : SyncStatus → List Channel}

theorem mem_listedStatuses (status : SyncStatus) : status ∈ Session.listedStatuses := by
  cases status <;> decide

theorem pairwise_listedStatuses :
    Session.listedStatuses.Pairwise fun a b => a.place < b.place := by
  decide

theorem Channel.not_listedBefore_self (c : Channel) : ¬c.ListedBefore c := by
  rintro (hplace | ⟨-, hbytes⟩)
  · exact Nat.lt_irrefl _ hplace
  · exact String.lt_irrefl c.cid (Text.lt_iff_bytes_lt.2 hbytes)

/-- The statuses that have channels, with all of these. -/
def groupsOfStatuses (found : SyncStatus → List Channel) : List (SyncStatus × List Channel) :=
  (Session.listedStatuses.map fun status => (status, found status)).filter fun group =>
    !group.2.isEmpty

theorem mem_groupsOfStatuses {group : SyncStatus × List Channel} :
    group ∈ groupsOfStatuses found ↔ group.2 = found group.1 ∧ group.2 ≠ [] := by
  unfold groupsOfStatuses
  rw [List.mem_filter, List.mem_map]
  constructor
  · rintro ⟨⟨status, -, rfl⟩, hne⟩
    exact ⟨rfl, by simpa using hne⟩
  · rintro ⟨hgroup, hne⟩
    exact ⟨⟨group.1, mem_listedStatuses _, by rw [← hgroup]⟩, by simpa using hne⟩

/-- Leaving out what is empty makes no difference to a sum over the statuses, -/
theorem sum_groupsOfStatuses (found : SyncStatus → List Channel) :
    ((groupsOfStatuses found).map fun group => group.2.length).sum
      = (Session.listedStatuses.flatMap found).length := by
  unfold groupsOfStatuses
  rw [List.length_flatMap]
  generalize Session.listedStatuses = statuses
  induction statuses with
  | nil => rfl
  | cons status statuses ih =>
      rw [List.map_cons, List.filter_cons, List.map_cons, List.sum_cons, ← ih]
      cases hfound : found status with
      | nil => simp
      | cons c cs => simp

/-- nor to what is printed of them. -/
theorem flatMap_groupsOfStatuses (found : SyncStatus → List Channel) :
    (groupsOfStatuses found).flatMap groupText = Session.listedStatuses.flatMap fun status =>
      if (found status).isEmpty then [] else groupText (status, found status) := by
  unfold groupsOfStatuses
  generalize Session.listedStatuses = statuses
  induction statuses with
  | nil => rfl
  | cons status statuses ih =>
      rw [List.map_cons, List.filter_cons, List.flatMap_cons, ← ih]
      cases hfound : found status with
      | nil => simp
      | cons c cs => simp

/-! ### What is found under each status -/

variable (h : ∀ status, IsSelection w.channels (fun c => c.syncStatus = status) (found status))
include h

/-- The statuses share out the channels. -/
theorem mem_flatMap_statuses (c : Channel) :
    c ∈ Session.listedStatuses.flatMap found ↔ lastOfKey w.channels c.cid = some c := by
  rw [List.mem_flatMap]
  constructor
  · rintro ⟨status, -, hc⟩
    exact (((h status).mem_iff c).1 hc).1
  · intro hlast
    exact ⟨c.syncStatus, mem_listedStatuses _, ((h c.syncStatus).mem_iff c).2 ⟨hlast, rfl⟩⟩

/-- The channels of all statuses, one status after another, are in the order of a listing. -/
theorem pairwise_listedBefore :
    (Session.listedStatuses.flatMap found).Pairwise Channel.ListedBefore := by
  have hstatus : ∀ status, ∀ c ∈ found status, c.syncStatus = status := fun status c hc =>
    (((h status).mem_iff c).1 hc).2
  refine List.pairwise_flatMap.2 ⟨fun status _ => ?_, ?_⟩
  · refine (h status).ascending.imp_of_mem fun {a b} ha hb hab => .inr ⟨?_, ?_⟩
    · exact (hstatus status a ha).trans (hstatus status b hb).symm
    · exact Text.lt_iff_bytes_lt.1 hab
  · refine pairwise_listedStatuses.imp fun {s t} hplace a ha b hb => .inl ?_
    rwa [hstatus s a ha, hstatus t b hb]

/-- No key is listed twice. -/
theorem nodup_cids : ((Session.listedStatuses.flatMap found).map Channel.cid).Nodup := by
  rw [List.Nodup, List.pairwise_map]
  refine (pairwise_listedBefore h).imp_of_mem fun {a b} ha hb hab hcid => ?_
  have hlast := (mem_flatMap_statuses h a).1 ha
  rw [hcid, (mem_flatMap_statuses h b).1 hb] at hlast
  obtain rfl := Option.some.inj hlast
  exact b.not_listedBefore_self hab

/-- There are as many channels as keys that were written. -/
theorem length_flatMap_statuses :
    (Session.listedStatuses.flatMap found).length = (firstOfKeys w.channels).length := by
  have hkeys : ∀ k, k ∈ (Session.listedStatuses.flatMap found).map Channel.cid ↔
      k ∈ (firstOfKeys w.channels).map key := by
    intro k
    rw [mem_keys_firstOfKeys, ← isSome_lastOfKey_iff, Option.isSome_iff_exists, List.mem_map]
    constructor
    · rintro ⟨c, hc, rfl⟩
      exact ⟨c, (mem_flatMap_statuses h c).1 hc⟩
    · rintro ⟨c, hlast⟩
      obtain rfl : c.cid = k := key_of_lastOfKey hlast
      exact ⟨c, (mem_flatMap_statuses h c).2 hlast, rfl⟩
  have hperm := (List.perm_ext_iff_of_nodup (nodup_cids h) (nodup_keys_firstOfKeys _)).2 hkeys
  have hlength := hperm.length_eq
  rwa [List.length_map, List.length_map] at hlength

/-- The channels with their newest messages are a listing. -/
theorem isListing_flatMap {limit : Nat} {history : String → List Message}
    (hhistory : ∀ cid, IsHistory w.messages cid (history cid)) :
    IsListing w limit ((Session.listedStatuses.flatMap found).map fun c =>
      ⟨c, atMost limit (history c.cid)⟩) where
  mem_iff c := by
    rw [List.map_map]
    show c ∈ (Session.listedStatuses.flatMap found).map id ↔ _
    rw [List.map_id]
    exact mem_flatMap_statuses h c
  once := by
    rw [List.map_map]
    exact nodup_cids h
  ordered := List.pairwise_map.2 (pairwise_listedBefore h)
  messages entry hentry := by
    obtain ⟨c, -, rfl⟩ := List.mem_map.1 hentry
    exact ⟨history c.cid, hhistory c.cid, Database.isFront_atMost _ _⟩
  orphans m hnone entry hentry hm := by
    obtain ⟨c, hc, rfl⟩ := List.mem_map.1 hentry
    have hmember := (atMost_sublist limit (history c.cid)).subset hm
    have hcid := (((hhistory c.cid).mem_iff m).1 hmember).2
    rw [hcid, (mem_flatMap_statuses h c).1 hc] at hnone
    exact nomatch hnone

theorem isGrouping_groupsOfStatuses : IsGrouping w (groupsOfStatuses found) where
  mem_iff c := by
    rw [← mem_flatMap_statuses h c, List.mem_flatMap]
    constructor
    · rintro ⟨group, hgroup, hc⟩
      exact ⟨group.1, mem_listedStatuses _, (mem_groupsOfStatuses.1 hgroup).1 ▸ hc⟩
    · rintro ⟨status, -, hc⟩
      exact ⟨(status, found status), mem_groupsOfStatuses.2 ⟨rfl, List.ne_nil_of_mem hc⟩, hc⟩
  selection group hgroup := (mem_groupsOfStatuses.1 hgroup).1 ▸ h group.1
  nonempty group hgroup := (mem_groupsOfStatuses.1 hgroup).2
  ordered := by
    unfold groupsOfStatuses
    refine List.Pairwise.filter _ ?_
    exact List.pairwise_map.2 pairwise_listedStatuses

end

/-! ## Actions that print -/

/-- A replica stands as another one does: the same is stored, and the same users are known. -/
structure Replica.StandsAs (r r' : Replica) : Prop where
  database_eq : r'.database = r.database
  alike : r.Alike r'

/-- An action of a replica gives this value, wherever the replica stands as it does now. -/
def Replica.Answers {α : Type} (r : Replica) (x : Action Replica α) (a : α) : Prop :=
  ∀ r', r.StandsAs r' → ∃ r'', x r' = (.ok a, r'') ∧ r.StandsAs r''

theorem Replica.StandsAs.refl (r : Replica) : r.StandsAs r := ⟨rfl, .refl r⟩

section

variable {r : Replica}

theorem Channels.answers_keysByStatus (hf : r.IsFaultless) (status : SyncStatus) :
    r.Answers (Channels.keysByStatus status) (r.database.channelKeysByStatus status) := by
  intro r' h
  have hfault : r'.faults (.channelKeysByStatus status) = none := by
    rw [h.alike.faults_eq]
    exact hf _
  refine ⟨_, Replica.read_of_unfaulted hfault (by rw [h.database_eq]), h.database_eq, ?_⟩
  exact h.alike.trans (r'.alike_noted _)

/-- The messages of a channel are found and completed. -/
theorem Messages.answers_forChannel (hf : r.IsFaultless) (hu : r.HasReadableUsers) {cid : String}
    {limit : Nat} {stored : List Message}
    (h : r.database.messagesForChannel cid limit = .ok stored) :
    r.Answers (Messages.forChannel cid limit) (stored.map r.completed) := by
  intro r' hstands
  have hfaultless : r'.IsFaultless := fun call => by
    rw [hstands.alike.faults_eq]
    exact hf call
  have hread : Replica.read (.messagesForChannel cid limit)
      (fun db => db.messagesForChannel cid limit) r'
        = (.ok stored, r'.noted (.messagesForChannel cid limit)) :=
    Replica.read_of_unfaulted (hfaultless _) (by rw [hstands.database_eq, h])
  have hnoted := hstands.alike.trans (r'.alike_noted (.messagesForChannel cid limit))
  have husers : (r'.noted (.messagesForChannel cid limit)).HasReadableUsers := by
    intro row hrow
    refine hu row ?_
    rwa [← hstands.database_eq]
  obtain ⟨completed, r'', hhydrate⟩ := Messages.exists_hydrate stored
    (r := r'.noted (.messagesForChannel cid limit)) hfaultless husers
  obtain ⟨rfl, hdatabase, halike⟩ := Messages.hydrate_ok hhydrate
  refine ⟨r'', ?_, hdatabase.trans hstands.database_eq, hnoted.trans halike⟩
  unfold Messages.forChannel
  rw [bind_apply_ok hread, hhydrate, hnoted.completed_eq]

end

namespace Session

/-- The action ends well and prints these lines, and otherwise leaves the replica as it stands. -/
def Writes (r : Replica) (x : Action Session Unit) (lines : List String) : Prop :=
  ∀ s, r.StandsAs s.client.replica → ∃ s', x s = (.ok (), s') ∧
    r.StandsAs s'.client.replica ∧ s'.printed = s.printed ++ lines

variable {r : Replica}

theorem writes_pure (r : Replica) : Writes r (pure ()) [] := by
  intro s h
  exact ⟨s, rfl, h, (List.append_nil _).symm⟩

theorem writes_print (r : Replica) (text : String) : Writes r (print text) [text] := by
  intro s h
  exact ⟨_, rfl, h, rfl⟩

theorem Writes.bind {x y : Action Session Unit} {lines more : List String} (hx : Writes r x lines)
    (hy : Writes r y more) : Writes r (x >>= fun _ => y) (lines ++ more) := by
  intro s h
  obtain ⟨s', hrun, h', hprinted⟩ := hx s h
  obtain ⟨s'', hrun', h'', hprinted'⟩ := hy s' h'
  refine ⟨s'', ?_, h'', ?_⟩
  · rw [bind_apply_ok hrun, hrun']
  · rw [hprinted', hprinted, List.append_assoc]

/-- What is done for each item is printed for each item. -/
theorem writes_each {α : Type} {f : α → Action Session Unit} {text : α → List String} (as : List α)
    (h : ∀ a ∈ as, Writes r (f a) (text a)) : Writes r (each f as) (as.flatMap text) := by
  induction as with
  | nil => exact writes_pure r
  | cons a as ih =>
      rw [List.flatMap_cons]
      exact (h a List.mem_cons_self).bind (ih fun b hb => h b (List.mem_cons_of_mem _ hb))

/-- Lines that are printed one after another. -/
theorem writes_lines (r : Replica) (lines : List String) : Writes r (each print lines) lines := by
  have hlines := writes_each lines fun text _ => writes_print r text
  rwa [List.flatMap_singleton'] at hlines

/-- What the replica answers is printed. -/
theorem writes_onReplica {α : Type} {x : Action Replica α} {a : α} (hx : r.Answers x a)
    {k : α → Action Session Unit} {lines : List String} (hk : Writes r (k a) lines) :
    Writes r (onReplica x >>= k) lines := by
  intro s h
  obtain ⟨r', hrun, h'⟩ := hx s.client.replica h
  have hlift : onReplica x s
      = (.ok a, { s with client := { s.client with replica := r' } }) := by
    unfold onReplica Client.onReplica Action.lift
    rw [hrun]
  rw [bind_apply_ok hlift]
  exact hk _ h'

/-! ## The two commands -/

/-- A replica that a run starts with: the database holds what was written, users and messages can be
read, and nobody is cached or logged in. -/
structure StartsOn (w : Written) (r : Replica) : Prop where
  maps : r.database.AreMapsOf w
  faultless : r.IsFaultless
  users : r.HasReadableUsers
  messages : ∀ row ∈ r.database.messages.rows, ∃ m, row.message = .ok m
  uncached : ∀ id, r.users.peek? id = none
  nobody : r.currentUser = none

namespace StartsOn

variable {w : Written} (h : StartsOn w r)
include h

/-- A message gets the author who was written last. -/
theorem authorOf_completed {m : Message} {id : String} (hauthor : m.user = .new id) :
    authorOf (r.completed m)
      = ((lastOfKey w.users id).bind fun record => record.user.name).getD id := by
  have hknown : r.knownUser? id = r.storedUser? id := by
    rw [Replica.knownUser?, h.nobody, h.uncached]
    rfl
  have hcompleted : (r.completed m).user = (r.storedUser? id).getD (.new id) := by
    show (r.knownUser? m.user.id).getD m.user = _
    rw [hauthor, ← hknown]
    rfl
  unfold authorOf
  rw [hcompleted, Replica.storedUser?, h.maps.users.get?_eq]
  cases hlast : lastOfKey w.users id with
  | none => rfl
  | some record =>
      have hrow : r.database.users.get? id = some record.toRow := by
        rw [h.maps.users.get?_eq, hlast, Option.map_some]
      obtain ⟨record', hread⟩ := h.users _ (Table.mem_of_get? hrow)
      have hid : record'.user.id = id := by
        have hkey : key record' = key record.toRow := Row.key_of_userRecord hread
        exact hkey.trans (Table.key_of_get? hrow)
      rw [Option.map_some, Option.bind_some, Option.bind_some, hread,
        ← Row.name_of_userRecord hread, ← hid]
      rfl

theorem messageLines_completed {m m' : Message} (hread : m.toRow.message = .ok m') :
    messageLines (r.completed m') = messageText w m := by
  obtain ⟨hid, huser, htext, hstatus, hreason⟩ := Row.listed_of_message hread
  have hauthor := h.authorOf_completed huser
  unfold messageLines messageText Written.authorName
  rw [hauthor]
  show (("  " ++ m'.syncStatus.label ++ " " ++ padded 24 m'.id ++ " " ++ _ ++ ": " ++ m'.text) ::
    (m'.syncDescription.map fun reason => "      ! " ++ reason).toList) = _
  rw [hid, htext, hstatus, hreason]
  cases m.syncDescription <;> rfl

theorem flatMap_messageLines {messages stored : List Message}
    (hread : List.Forall₂ (fun m m' => m.toRow.message = .ok m') messages stored) :
    (stored.map r.completed).flatMap messageLines = messages.flatMap (messageText w) := by
  induction hread with
  | nil => rfl
  | cons hm _ ih =>
      rw [List.map_cons, List.flatMap_cons, List.flatMap_cons, ih, h.messageLines_completed hm]

/-- A channel is printed with the front of its history. -/
theorem writes_readChannel {cid : String} {history : List Message}
    (hrows : (r.database.messages.rows.filter fun row => row.messageChannel == .text cid).mergeSort
      Row.newerFirst = history.map Message.toRow) (status : SyncStatus) (limit : Nat) :
    Writes r (readChannel status limit cid) ((cid ++ " [" ++ status.label ++ "]") ::
      (atMost limit history).flatMap (messageText w)) := by
  obtain ⟨stored, hstored, hread⟩ := Database.exists_messagesForChannel hrows h.messages limit
  have hmessages : Writes r (each print ((stored.map r.completed).flatMap messageLines))
      ((atMost limit history).flatMap (messageText w)) := by
    rw [← h.flatMap_messageLines hread]
    exact writes_lines r _
  exact (writes_print r _).bind (writes_onReplica
    (Messages.answers_forChannel h.faultless h.users hstored) hmessages)

theorem writes_read {found : SyncStatus → List Channel} {history : String → List Message}
    (hfound : ∀ status, IsSelection w.channels (fun c => c.syncStatus = status) (found status))
    (hkeys : ∀ status, r.database.channelKeysByStatus status = (found status).map key)
    (hrows : ∀ cid, (r.database.messages.rows.filter fun row =>
      row.messageChannel == .text cid).mergeSort Row.newerFirst
        = (history cid).map Message.toRow) (limit : Nat) :
    Writes r (read limit) (((listedStatuses.flatMap found).map fun c =>
      (⟨c, atMost limit (history c.cid)⟩ : ListedChannel)).flatMap (channelText w)) := by
  rw [List.flatMap_map, List.flatMap_assoc]
  refine writes_each _ fun status _ => ?_
  refine writes_onReplica (Channels.answers_keysByStatus h.faultless status) ?_
  have hchannels := writes_each ((found status).map key) fun cid _ =>
    h.writes_readChannel (hrows cid) status limit
  rw [hkeys]
  rw [List.flatMap_map] at hchannels
  -- the status under which a channel is found is its own
  have htext : (found status).flatMap (fun c => channelText w ⟨c, atMost limit (history c.cid)⟩)
      = (found status).flatMap fun c => (c.cid ++ " [" ++ status.label ++ "]") ::
          (atMost limit (history c.cid)).flatMap (messageText w) := by
    refine List.flatMap_congr fun c hc => ?_
    rw [channelText, (((hfound status).mem_iff c).1 hc).2]
  rw [htext]
  exact hchannels

theorem writes_readKeys {found : SyncStatus → List Channel}
    (hkeys : ∀ status, r.database.channelKeysByStatus status = (found status).map key) :
    Writes r readKeys ((groupsOfStatuses found).flatMap groupText) := by
  rw [flatMap_groupsOfStatuses]
  refine writes_each _ fun status _ => ?_
  refine writes_onReplica (Channels.answers_keysByStatus h.faultless status) ?_
  rw [hkeys]
  cases hfound : found status with
  | nil => exact writes_pure r
  | cons c cs =>
      have hcids : Writes r (each (fun cid => print ("  " ++ cid)) ((c :: cs).map key))
          ((c :: cs).map fun c => "  " ++ c.cid) := by
        have hlines := writes_each ((c :: cs).map key) fun cid _ =>
          writes_print r ("  " ++ cid)
        rwa [List.flatMap_map, ← List.map_eq_flatMap] at hlines
      have hhead := writes_print r (status.label ++ s!" ({((c :: cs).map key).length})")
      have htext : groupText (status, c :: cs) = (status.label
          ++ s!" ({((c :: cs).map key).length})") :: (c :: cs).map fun c => "  " ++ c.cid := by
        rw [List.length_map]
        rfl
      show Writes r _ (groupText (status, c :: cs))
      rw [htext]
      exact hhead.bind hcids

end StartsOn

end Session

/-! ## Runs of the tool -/

namespace Tool

/-- Every run of the command on a file with this database ends well, prints these lines and leaves
the database as it is, if there is room for the caches. -/
def Prints (db : Database) (command : Command) (lines : List String) : Prop :=
  ∀ environment around invocation path found, invocation.command = command →
    (found.getD DatabaseFile.blank).opened (some path) = .ok db →
    (config environment invocation.database).cachesFit = true →
    runOn environment around invocation path found = ⟨.done, lines, kept path db⟩

/-- A command that does nothing but print prints in every run. -/
theorem prints_of_writes {db : Database} {command : Command} {x : Action Session Unit}
    {lines : List String} (hexecute : ∀ rules around, Session.execute rules around command = x)
    (hroom : ∀ c : Config, hasRoom c command = (c.cachesFit && true))
    (hwrites : ∀ c : Config, Session.Writes (c.replica db none) x lines) :
    Prints db command lines := by
  intro environment around invocation path found hcommand hopened hfit
  let c := config environment invocation.database
  obtain ⟨session, hrun, hstands, hprinted⟩ := hwrites c (.start c db) (.refl _)
  have hdatabase : session.database = db := hstands.database_eq
  have hlines : session.printed = lines := hprinted.trans (List.nil_append lines)
  have htool : runOn environment around invocation path found
      = ⟨.done, session.printed, kept path session.database⟩ := by
    refine runOn_of_opened rfl hopened ?_ ?_
    · rw [hcommand, hroom, hfit, Bool.and_true]
    · rw [hcommand, hexecute]
      exact hrun
  rw [htool, hdatabase, hlines]

/-- **The tool lists every channel once.** Whatever has been written, if the users and the messages
that are stored can be read: the command `read` prints each channel once, under its own status, in
the order of statuses and keys, and under it the newest messages of its history, as many as the
limit says, with the names of their authors and the reasons of failures; and the command `read-cids`
prints the channels by status, in groups none of which is empty, as many channels as there are. -/
theorem read_lists (path : Option String) (calls : List DatabaseCall) (limit : Nat)
    (husers : ∀ row ∈ (DatabaseCall.runAll calls (.create path)).users.rows,
      ∃ record, row.userRecord = .ok record)
    (hmessages : ∀ row ∈ (DatabaseCall.runAll calls (.create path)).messages.rows,
      ∃ m, row.message = .ok m) :
    (∃ listing, IsListing (DatabaseCall.written calls) limit listing ∧
      Prints (DatabaseCall.runAll calls (.create path)) (.read limit)
        (listing.flatMap (channelText (DatabaseCall.written calls)))) ∧
    ∃ groups, IsGrouping (DatabaseCall.written calls) groups ∧
      (groups.map fun group => group.2.length).sum
        = (DatabaseCall.runAll calls (.create path)).channels.size ∧
      Prints (DatabaseCall.runAll calls (.create path)) .readKeys (groups.flatMap groupText) := by
  have hmaps := (DatabaseCall.keeps_runAll (Database.keeps_create path) calls).maps
  have hstarts : ∀ c : Config, Session.StartsOn (DatabaseCall.written calls)
      (c.replica (DatabaseCall.runAll calls (.create path)) none) := fun _ =>
    { maps := hmaps, faultless := fun _ => rfl, users := husers, messages := hmessages
      uncached := fun _ => rfl, nobody := rfl }
  choose found hfound hkeys using hmaps.answersFrom.channelKeysByStatus
  choose history hhistory hrows using Database.exists_history_of_rows hmaps.messages hmessages
  refine ⟨⟨_, isListing_flatMap hfound hhistory, ?_⟩, groupsOfStatuses found,
    isGrouping_groupsOfStatuses hfound, ?_, ?_⟩
  · exact prints_of_writes (fun _ _ => rfl) (fun _ => rfl) fun c =>
      (hstarts c).writes_read hfound hkeys hrows limit
  · rw [sum_groupsOfStatuses, length_flatMap_statuses hfound]
    exact hmaps.channels.size_eq.symm
  · exact prints_of_writes (fun _ _ => rfl) (fun _ => rfl) fun c =>
      (hstarts c).writes_readKeys hkeys

/-- A message of a known author in a channel, and one whose channel was never written. -/
def withOrphan : List DatabaseCall :=
  [ .putUsers [{ User.new "u1" with name := some "Ada" }], .putChannels [Channel.new "team" "a"],
    .putMessages [{ (default : Message) with id := "m1", cid := "team:a", user := .new "u1" },
      { (default : Message) with id := "m2", cid := "team:gone" }] ]

/-- The message without a channel is not listed, and the channel is. -/
theorem read_lists_withOrphan : ∃ listing : List ListedChannel,
    Channel.new "team" "a" ∈ listing.map ListedChannel.channel ∧
    (∀ entry ∈ listing, { (default : Message) with id := "m2", cid := "team:gone" }
      ∉ entry.messages) ∧
    runOn (fun _ => none) ⟨.epoch, id⟩ ⟨none, .read 10⟩ "chat.db"
        (some (DatabaseCall.runAll withOrphan (.create none)).file)
      = ⟨.done, listing.flatMap (channelText (DatabaseCall.written withOrphan)),
        some (DatabaseCall.runAll withOrphan (.create (some "chat.db")))⟩ := by
  let db := DatabaseCall.runAll withOrphan (.create (some "chat.db"))
  have husers : ∀ row ∈ db.users.rows, ∃ record, row.userRecord = .ok record := by
    have hall : db.users.rows.all fun row => row.userRecord.toOption.isSome := rfl
    intro row hrow
    obtain ⟨record, hread⟩ := Option.isSome_iff_exists.1 (List.all_eq_true.1 hall row hrow)
    exact ⟨record, toOption_eq_some_iff.1 hread⟩
  have hmessages : ∀ row ∈ db.messages.rows, ∃ m, row.message = .ok m := by
    have hall : db.messages.rows.all fun row => row.message.toOption.isSome := rfl
    intro row hrow
    obtain ⟨m, hread⟩ := Option.isSome_iff_exists.1 (List.all_eq_true.1 hall row hrow)
    exact ⟨m, toOption_eq_some_iff.1 hread⟩
  obtain ⟨⟨listing, hlisting, hprints⟩, -⟩ :=
    read_lists (some "chat.db") withOrphan 10 husers hmessages
  refine ⟨listing, (hlisting.mem_iff _).2 rfl, hlisting.orphans _ rfl, ?_⟩
  exact hprints _ _ _ _ _ rfl rfl (by decide)

end Tool

end OfflineChat
