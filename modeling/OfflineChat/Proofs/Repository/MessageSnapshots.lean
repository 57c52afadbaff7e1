import OfflineChat.Proofs.Repository.Lawful

/-! # The users in cached messages

A cached message keeps the users that it was filed with, while one that is read from the database
gets the users that the replica knows by then. So a read can tell whether a message was cached, but
only by its users. Main definitions: `Replica.withoutMessages`, the replica whose cache of messages
was dropped; `Replica.IsCurrent`, for messages whose users are those that the replica knows; and
`Replica.ShowsMessages`, what the reads of messages show. Main statement: `Replica.showsMessages`,
of every run of the application. -/

set_option autoImplicit false

namespace OfflineChat

open OfflineChat.Action

namespace Replica

/-- The replica with its cache of messages dropped. -/
def withoutMessages (r : Replica) : Replica := { r with messages := r.messages.clear }

/-- The user that is put into a message for an id. A user that is not known is bare. -/
def userFor (r : Replica) (id : String) : User := (r.knownUser? id).getD (.new id)

/-- The users of the message are those that are put into it now. -/
def IsCurrent (r : Replica) (m : Message) : Prop :=
  ∀ u ∈ m.user :: m.mentionedUsers, u = r.userFor u.id

theorem completed_withUserIds (r : Replica) (m : Message) :
    r.completed m.withUserIds = { m with
      user := r.userFor m.user.id
      mentionedUsers := m.mentionedUsers.map fun u => r.userFor u.id } := by
  simp only [completed, Message.withUserIds, List.map_map]
  rfl

/-- A message is what is read back of it exactly if it is current. -/
theorem completed_withUserIds_eq_iff {r : Replica} {m : Message} :
    r.completed m.withUserIds = m ↔ r.IsCurrent m := by
  rw [completed_withUserIds]
  constructor
  · intro h u hu
    rcases List.mem_cons.1 hu with rfl | hu
    · exact (congrArg Message.user h).symm
    · have hself : m.mentionedUsers.map (fun u : User => r.userFor u.id)
          = m.mentionedUsers.map id :=
        (congrArg Message.mentionedUsers h).trans (List.map_id _).symm
      exact (List.map_inj_left.1 hself u hu).symm
  · intro h
    obtain ⟨hauthor, hrest⟩ := List.forall_mem_cons.1 h
    have hself : m.mentionedUsers.map (fun u : User => r.userFor u.id) = m.mentionedUsers := by
      calc m.mentionedUsers.map (fun u : User => r.userFor u.id)
          = m.mentionedUsers.map id := List.map_congr_left fun u hu => (hrest u hu).symm
        _ = m.mentionedUsers := List.map_id _
    rw [hself, ← hauthor]

/-- What reads of messages show, with the cache of messages and without. -/
structure ShowsMessages (r : Replica) : Prop where
  /-- A message is found with the cache if and only if it is found without. The two are the same but
  for their users, and the same altogether unless the cached one is not current. -/
  select : ∀ id, ∃ found fresh, (Messages.select id r).1 = .ok found ∧
    (Messages.select id r.withoutMessages).1 = .ok fresh ∧
    found.map Message.withUserIds = fresh.map Message.withUserIds ∧
    (found = fresh ↔ ∀ m, r.messages.peek? id = some m → r.IsCurrent m)
  /-- Of many messages the same is shown as of each of them. -/
  selectMany : ∀ ids, ∃ found, (Messages.selectMany ids r).1 = .ok found ∧
    ∀ m, m ∈ found ↔ m.id ∈ ids ∧ (Messages.select m.id r).1 = .ok (some m)
  /-- The messages of a channel are shown as they are without the cache. -/
  forChannel : ∀ cid limit, ∃ found, (Messages.forChannel cid limit r).1 = .ok found ∧
    ∀ m ∈ found, (Messages.select m.id r.withoutMessages).1 = .ok (some m)

theorem IsLegible.withoutMessages {r : Replica} (h : r.IsLegible) :
    r.withoutMessages.IsLegible where
  users := ⟨h.users.rows, h.users.cache⟩
  channels := ⟨h.channels.rows, h.channels.cache⟩
  messages := ⟨h.messages.rows, fun hcached => absurd hcached (Option.not_mem_none _)⟩

theorem IsFaultless.withoutMessages {r : Replica} (h : r.IsFaultless) :
    r.withoutMessages.IsFaultless := h

theorem alike_withoutMessages (r : Replica) : r.Alike r.withoutMessages := ⟨rfl, rfl, rfl, rfl⟩

end Replica

/-! ## Reads -/

/-- A message that was read from a row is the stored one of its id. -/
theorem Messages.stored_of_read {r : Replica} {row : Row} {m : Message}
    (hrow : row ∈ r.database.messages.rows) (hread : row.message = .ok m) :
    messageShelf.stored r m.id = some m := by
  have hkey : m.id = key row := Row.key_of_message hread
  have hget : (messageShelf.rows r).get? m.id = some row := hkey ▸ Table.get?_of_mem hrow
  exact Shelf.stored_of_row hget hread

section Reads

variable {r : Replica} (hf : r.IsFaultless) (hr : r.IsLegible)
include hf hr

/-- Without the cache a message is the stored one, completed. -/
theorem Messages.select_withoutMessages (id : String) :
    (Messages.select id r.withoutMessages).1
      = .ok ((messageShelf.stored r id).map r.completed) := by
  have hselect := Messages.select_uncached hf.withoutMessages hr.withoutMessages
    (EntityCache.peek?_clear r.messages id)
  rw [r.alike_withoutMessages.completed_eq] at hselect
  exact hselect

/-- The messages of a channel are stored ones, completed. -/
theorem Messages.exists_forChannel (cid : String) (limit : Nat) :
    ∃ stored : List Message, (∀ m ∈ stored, ∃ row ∈ r.database.messages.rows, row.message = .ok m) ∧
      (Messages.forChannel cid limit r).1 = .ok (stored.map r.completed) := by
  have hrows : ∀ row ∈ atMost limit ((r.database.messages.rows.filter
      fun row => row.messageChannel == .text cid).mergeSort Row.newerFirst),
        row ∈ r.database.messages.rows := by
    intro row hrow
    have hsorted := (atMost_sublist limit _).subset hrow
    exact (List.mem_filter.1 (List.mem_mergeSort.1 hsorted)).1
  obtain ⟨stored, hstored⟩ : ∃ stored, r.database.messagesForChannel cid limit = .ok stored := by
    refine Database.exists_readRows fun row hrow => ?_
    obtain ⟨m, hm, _⟩ := hr.messages.rows (Table.get?_of_mem (hrows row hrow))
    exact ⟨m, hm⟩
  have hread : Replica.read (.messagesForChannel cid limit)
      (fun db => db.messagesForChannel cid limit) r
        = (.ok stored, r.noted (.messagesForChannel cid limit)) :=
    Replica.read_of_unfaulted (hf _) hstored
  have halike := r.alike_noted (.messagesForChannel cid limit)
  obtain ⟨completed, r', hhydrate⟩ := Messages.exists_hydrate
    (r := r.noted (.messagesForChannel cid limit)) stored hf hr.hasReadableUsers
  obtain ⟨rfl, _⟩ := Messages.hydrate_ok hhydrate
  refine ⟨stored, fun m hm => ?_, ?_⟩
  · obtain ⟨row, hrow, hmessage⟩ := (Database.mem_readRows hstored).1 hm
    exact ⟨row, hrows row hrow, hmessage⟩
  · unfold Messages.forChannel
    rw [bind_apply_ok hread, hhydrate, halike.completed_eq]

end Reads

/-! ## What is shown -/

namespace Replica.IsLegible

variable {r : Replica} (hr : r.IsLegible) (hf : r.IsFaultless)
include hr hf

/-- The messages that are found for some ids are those that are found for each of them. -/
theorem selectMany_messages (ids : List String) :
    ∃ found, (Messages.selectMany ids r).1 = .ok found ∧
      ∀ m, m ∈ found ↔ m.id ∈ ids ∧ (Messages.select m.id r).1 = .ok (some m) := by
  obtain ⟨stored, hstored⟩ := hr.exists_messagesOf (r.messages.misses ids)
  have hmiss : ∀ {k}, k ∈ r.messages.misses ids ↔ k ∈ ids ∧ r.messages.peek? k = none := by
    intro k
    unfold EntityCache.misses
    rw [List.mem_filter, mem_firstOfKeys_iff, Option.isNone_iff_eq_none]
  refine ⟨(firstOfKeys ids).filterMap r.messages.peek? ++ stored.map r.completed, ?_, fun m => ?_⟩
  · rw [Messages.fst_selectMany hf hr, hstored]
    rfl
  rw [List.mem_append, List.mem_filterMap, List.mem_map]
  constructor
  · rintro (⟨k, hk, hcached⟩ | ⟨m', hm', rfl⟩)
    · obtain rfl : m.id = k := EntityCache.key_of_peek? hcached
      exact ⟨mem_firstOfKeys_iff.1 hk, Messages.select_cached hcached⟩
    · obtain ⟨row, hrow, hkey, hread⟩ := (Database.mem_of_readMany hstored).1 hm'
      have hid : m'.id = key row := Row.key_of_message hread
      obtain ⟨hmem, huncached⟩ := hmiss.1 (hid ▸ hkey)
      have hselect := Messages.select_uncached hf hr huncached
      rw [Messages.stored_of_read hrow hread] at hselect
      exact ⟨hmem, hselect⟩
  · rintro ⟨hmem, hselect⟩
    cases hcached : r.messages.peek? m.id with
    | some c =>
        have hc : some c = some m :=
          Except.ok.inj ((Messages.select_cached hcached).symm.trans hselect)
        exact .inl ⟨m.id, mem_firstOfKeys_iff.2 hmem, hcached.trans hc⟩
    | none =>
        have hc := Except.ok.inj ((Messages.select_uncached hf hr hcached).symm.trans hselect)
        obtain ⟨m', hm', hcompleted⟩ := Option.map_eq_some_iff.1 hc
        obtain ⟨row, hrow, hread⟩ := Option.bind_eq_some_iff.1 hm'
        have hmessage : row.message = .ok m' := toOption_eq_some_iff.1 hread
        refine .inr ⟨m', (Database.mem_of_readMany hstored).2 ⟨row, Table.mem_of_get? hrow, ?_,
          hmessage⟩, hcompleted⟩
        rw [Table.key_of_get? hrow]
        exact hmiss.2 ⟨hmem, hcached⟩

/-- A message that is cached as its row has it is shown with and without the cache, and the same if
and only if it is current. -/
theorem select_message {id : String} (hfaithful : messageShelf.Faithful r id) :
    ∃ found fresh, (Messages.select id r).1 = .ok found ∧
      (Messages.select id r.withoutMessages).1 = .ok fresh ∧
      found.map Message.withUserIds = fresh.map Message.withUserIds ∧
      (found = fresh ↔ ∀ m, r.messages.peek? id = some m → r.IsCurrent m) := by
  have hfresh := Messages.select_withoutMessages hf hr id
  cases hcached : r.messages.peek? id with
  | none =>
      refine ⟨_, _, Messages.select_uncached hf hr hcached, hfresh, rfl, iff_of_true rfl ?_⟩
      intro m hm
      exact absurd hm (by simp)
  | some m =>
      -- the row has lost the users, so a fresh message gets those that are known now
      have hstored : messageShelf.stored r id = some m.withUserIds := hfaithful m hcached
      rw [hstored] at hfresh
      refine ⟨some m, _, Messages.select_cached hcached, hfresh, ?_, ?_⟩
      · refine congrArg some (Eq.symm ?_)
        calc (r.completed m.withUserIds).withUserIds
            = m.withUserIds.withUserIds := r.withUserIds_completed _
          _ = m.withUserIds := Shelf.part_of_stored hstored
      · have hsame : some m = some (r.completed m.withUserIds) ↔ r.IsCurrent m := by
          rw [Option.some.injEq, eq_comm]
          exact completed_withUserIds_eq_iff
        refine hsame.trans ⟨fun h m' hm' => Option.some.inj hm' ▸ h, fun h => h m rfl⟩

/-- What is shown of messages that are cached as their rows have them. -/
theorem shows_of_faithful (hfaithful : ∀ id, messageShelf.Faithful r id) : r.ShowsMessages where
  select id := hr.select_message hf (hfaithful id)
  selectMany := hr.selectMany_messages hf
  forChannel cid limit := by
    obtain ⟨stored, hstored, hfound⟩ := Messages.exists_forChannel hf hr cid limit
    refine ⟨stored.map r.completed, hfound, fun m hm => ?_⟩
    obtain ⟨m', hm', rfl⟩ := List.mem_map.1 hm
    obtain ⟨row, hrow, hread⟩ := hstored m' hm'
    have hfresh := Messages.select_withoutMessages hf hr m'.id
    rw [Messages.stored_of_read hrow hread] at hfresh
    exact hfresh

end Replica.IsLegible

namespace Replica

/-- **Dropping the cache of messages changes what is read exactly where a cached message is not
current**, and there only the users: after any run of the application in which no write fails and
whatever is written can be read back, over caches of any capacities and a database whose rows can be
read. -/
theorem showsMessages {db : Database} (hdb : db.HoldsReadable) (currentUser : Option User)
    (userCapacity channelCapacity messageCapacity : Nat) {calls : List OperationCall}
    (hreadable : ∀ call ∈ calls, call.operation.IsReadable)
    (hwritten : ∀ call ∈ calls, ∀ c, c.isPut = true → call.faults c = none) :
    ((Replica.new db currentUser userCapacity channelCapacity messageCapacity).after
      calls).recovered.ShowsMessages := by
  have hnew := IsLegible.new hdb currentUser userCapacity channelCapacity messageCapacity
  refine (hnew.after hreadable).recovered.shows_of_faithful (isFaultless_recovered _) fun id => ?_
  have hcommits : ∀ call ∈ calls, messageShelf.Commits id call :=
    fun call hcall ids _ => hwritten call hcall (.putMessages ids) rfl
  exact (messageShelf_lawful.spares_withFaults _ _).faithful
    (messageShelf_lawful.faithful_after hnew hreadable hcommits rfl
      (messageShelf_lawful.faithful_new _ _ _ _ _ id))

/-- A message as its author writes it, whatever is known of the author. -/
def messageBy (author : User) : Message :=
  { (default : Message) with id := "m1", cid := "messaging:general", user := author }

/-- The author is banned after the message was cached. -/
def authorBanned : Replica :=
  ((Replica.new (.create none) none 1 1 1).after
    [⟨.insertUsers [.new "alice"], fun _ => none⟩,
    ⟨.insertMessages [messageBy (.new "alice")] true, fun _ => none⟩,
    ⟨.insertUsers [{ User.new "alice" with banned := true }], fun _ => none⟩]).recovered

/-- The cached message does not know of the ban, so it is not current, and dropping the cache
changes what is read. -/
theorem showsMessages_authorBanned :
    ∃ found fresh, (Messages.select "m1" authorBanned).1 = .ok found ∧
      (Messages.select "m1" authorBanned.withoutMessages).1 = .ok fresh ∧ found ≠ fresh := by
  have hshows : authorBanned.ShowsMessages := by
    refine showsMessages (Database.holdsReadable_create none) none 1 1 1 ?_ ?_
    · have hmessage : (messageBy (.new "alice")).IsReadable :=
        ⟨⟨trivial, fun a ha => absurd ha List.not_mem_nil⟩, by decide⟩
      simp only [List.forall_mem_cons, List.not_mem_nil, false_imp_iff, implies_true, and_true,
        Operation.IsReadable]
      exact ⟨User.isReadable_new "alice", hmessage, User.isReadable_new "alice"⟩
    · simp only [List.forall_mem_cons, List.not_mem_nil, false_imp_iff, implies_true, and_true]
  obtain ⟨found, fresh, hfound, hfresh, _, hsame⟩ := hshows.select "m1"
  refine ⟨found, fresh, hfound, hfresh, fun he => ?_⟩
  have hcurrent := hsame.1 he (messageBy (.new "alice")) rfl (.new "alice") List.mem_cons_self
  exact absurd (congrArg User.banned hcurrent) (by decide)

/-- **The same message is shown with two contents**: as it was cached, and with what is known of its
author now. -/
theorem banned_author_shown_unbanned :
    (Messages.select "m1" authorBanned).1 = .ok (some (messageBy (.new "alice"))) ∧
    (Messages.select "m1" authorBanned.withoutMessages).1
      = .ok (some (messageBy { User.new "alice" with banned := true })) ∧
    (Messages.forChannel "messaging:general" 10 authorBanned).1
      = .ok [messageBy { User.new "alice" with banned := true }] := by
  have hrows : authorBanned.database.messagesForChannel "messaging:general" 10
      = .ok [messageBy (.new "alice")] := by
    have hfilter : (authorBanned.database.messages.rows.filter
        fun row => row.messageChannel == .text "messaging:general")
          = [(messageBy (.new "alice")).toRow] := rfl
    unfold Database.messagesForChannel
    rw [hfilter, List.mergeSort_singleton]
    rfl
  have hread : Replica.read (.messagesForChannel "messaging:general" 10)
      (fun db => db.messagesForChannel "messaging:general" 10) authorBanned
        = (.ok [messageBy (.new "alice")],
          authorBanned.noted (.messagesForChannel "messaging:general" 10)) :=
    read_of_unfaulted rfl hrows
  refine ⟨rfl, rfl, ?_⟩
  unfold Messages.forChannel
  rw [bind_apply_ok hread]
  rfl

end Replica

end OfflineChat
