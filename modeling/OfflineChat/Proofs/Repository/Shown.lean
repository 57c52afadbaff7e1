import OfflineChat.Proofs.Repository.Shelf

/-! # What reads show of the shelves

Main definition: `Replica.IsLegible`, all that a replica holds is read back. Main statements: if no
call fails, a read of one key or of many succeeds and shows what is cached, else what is stored
(`Users.select_shown`, `Channels.select_shown`, `Messages.select_uncached`,
`Users.selectMany_shown`, `Channels.selectMany_shown`, `Messages.selectMany_shown`). -/

set_option autoImplicit false

namespace OfflineChat

open OfflineChat.Action

/-- All that a replica holds is read back. -/
structure Replica.IsLegible (r : Replica) : Prop where
  users : userShelf.Legible r
  channels : channelShelf.Legible r
  messages : messageShelf.Legible r

/-! ## Single reads -/

/-- The row of a key is read if it can be read. -/
theorem Database.readOne_of_readable {α : Type} {read : Row → Except StoreError α} {t : Table Row}
    {k : String} (h : ∀ {row}, t.get? k = some row → ∃ a, read row = .ok a) :
    Database.readOne read t k = .ok ((t.get? k).bind fun row => (read row).toOption) := by
  unfold Database.readOne
  cases hrow : t.get? k with
  | none => rfl
  | some row =>
      obtain ⟨a, ha⟩ := h hrow
      simp only [ha, Option.bind_some]
      rfl

/-- The user of a row that can be read. -/
theorem exists_userRecord {r : Replica} (hr : r.IsLegible) {id : String} {row : Row}
    (hrow : r.database.users.get? id = some row) : ∃ record, row.userRecord = .ok record := by
  obtain ⟨u, hread, _⟩ := hr.users.rows hrow
  obtain ⟨record, hrecord, _⟩ := map_eq_ok_iff.1 hread
  exact ⟨record, hrecord⟩

theorem Replica.IsLegible.hasReadableUsers {r : Replica} (hr : r.IsLegible) :
    r.HasReadableUsers := fun _ hrow => exists_userRecord hr (Table.get?_of_mem hrow)

/-- A stored user, as the shelf reads it. -/
theorem userShelf_stored (r : Replica) (id : String) :
    userShelf.stored r id = ((r.database.users.get? id).bind fun row =>
      row.userRecord.toOption).map UserRecord.user := by
  unfold Shelf.stored
  simp only [userShelf]
  cases r.database.users.get? id with
  | none => rfl
  | some row => cases hread : row.userRecord <;> simp only [Option.bind_some, hread] <;> rfl

theorem Users.select_cached {r : Replica} {id : String} {user : User}
    (hcached : r.users.peek? id = some user) : (Users.select id r).1 = .ok (some user) := by
  unfold Users.select
  rw [bind_apply, update_apply]
  simp only [EntityCache.get?, hcached, pure_apply]

/-- The user of an id: the cached one, else the stored one. -/
theorem Users.select_shown {r : Replica} (hf : r.IsFaultless) (hr : r.IsLegible) (id : String) :
    (Users.select id r).1 = .ok (userShelf.shown r id) := by
  have hstored : r.database.userRecord? id = .ok ((r.database.users.get? id).bind fun row =>
      row.userRecord.toOption) := Database.readOne_of_readable (exists_userRecord hr)
  have hshown : userShelf.shown r id = (r.users.peek? id).or (userShelf.stored r id) := by
    unfold Shelf.shown
    simp only [userShelf, Option.map_id_fun, id_eq]
  rw [hshown, userShelf_stored]
  unfold Users.select
  rw [bind_apply, update_apply]
  cases hcached : r.users.peek? id with
  | some user => simp only [EntityCache.get?, hcached, pure_apply, Option.some_or]
  | none =>
      simp only [EntityCache.get?, hcached]
      let touched : Replica := { r with users := r.users.touch id }
      have hread : Replica.read (.user id) (fun db => db.userRecord? id) touched
          = (.ok ((r.database.users.get? id).bind fun row => row.userRecord.toOption),
            touched.noted (.user id)) := Replica.read_of_unfaulted (hf _) hstored
      exact congrArg Prod.fst (bind_apply_ok hread)

/-- The channel of a key is the cached one, else what the database answers. -/
theorem Channels.fst_select (cid : String) (r : Replica) :
    (Channels.select cid r).1
      = match r.channels.peek? cid with
        | some channel => .ok (some channel)
        | none => (r.faults (.channel cid)).elim (r.database.channel? cid) .error := by
  unfold Channels.select
  rw [bind_apply, update_apply]
  cases hcached : r.channels.peek? cid with
  | some channel => simp only [EntityCache.get?, hcached, pure_apply]
  | none =>
      simp only [EntityCache.get?, hcached]
      unfold Replica.read Replica.call
      cases hf : r.faults (.channel cid) <;> simp [hf]

theorem Channels.select_cached {r : Replica} {cid : String} {channel : Channel}
    (hcached : r.channels.peek? cid = some channel) :
    (Channels.select cid r).1 = .ok (some channel) := by
  rw [Channels.fst_select, hcached]

/-- The channel of a key: the cached one, else the stored one. -/
theorem Channels.select_shown {r : Replica} {cid : String} (hf : r.faults (.channel cid) = none)
    (hr : r.IsLegible) : (Channels.select cid r).1 = .ok (channelShelf.shown r cid) := by
  have hstored : r.database.channel? cid = .ok (channelShelf.stored r cid) :=
    Database.readOne_of_readable fun hrow => by
      obtain ⟨c, hc, _⟩ := hr.channels.rows hrow
      exact ⟨c, hc⟩
  have hshown : channelShelf.shown r cid
      = (r.channels.peek? cid).or (channelShelf.stored r cid) := by
    unfold Shelf.shown
    simp only [channelShelf, Option.map_id_fun, id_eq]
  rw [Channels.fst_select, hshown, hf]
  cases r.channels.peek? cid with
  | some channel => rfl
  | none => exact hstored

/-- Completing a message does not change what a row holds of it. -/
theorem Replica.withUserIds_completed (r : Replica) (m : Message) :
    (r.completed m).withUserIds = m.withUserIds := by
  have hid : ∀ u : User, ((r.knownUser? u.id).getD u).id = u.id := by
    intro u
    cases hknown : r.knownUser? u.id with
    | none => rfl
    | some v => exact id_of_knownUser? hknown
  unfold completed Message.withUserIds
  simp only [hid, List.map_map]
  congr 1
  exact List.map_congr_left fun u _ => congrArg User.new (hid u)

/-- A message that is not cached is the stored one, completed. -/
theorem Messages.select_uncached {r : Replica} (hf : r.IsFaultless) (hr : r.IsLegible) {id : String}
    (hcached : r.messages.peek? id = none) :
    (Messages.select id r).1 = .ok ((messageShelf.stored r id).map r.completed) := by
  have hstored : r.database.message? id = .ok (messageShelf.stored r id) :=
    Database.readOne_of_readable fun hrow => by
      obtain ⟨m, hm, _⟩ := hr.messages.rows hrow
      exact ⟨m, hm⟩
  let touched : Replica := { r with messages := r.messages.touch id }
  have halike : r.Alike (touched.noted (.message id)) := ⟨rfl, rfl, rfl, rfl⟩
  obtain ⟨completed, r', hhydrate⟩ := Messages.exists_hydrate (r := touched.noted (.message id))
    (messageShelf.stored r id).toList hf hr.hasReadableUsers
  obtain ⟨rfl, _⟩ := Messages.hydrate_ok hhydrate
  unfold Messages.select
  rw [bind_apply, update_apply]
  simp only [EntityCache.get?, hcached]
  have hread : Replica.read (.message id) (fun db => db.message? id) touched
      = (.ok (messageShelf.stored r id), touched.noted (.message id)) :=
    Replica.read_of_unfaulted (hf _) hstored
  rw [bind_apply_ok hread, bind_apply_ok hhydrate, halike.completed_eq]
  cases messageShelf.stored r id <;> rfl

theorem Messages.select_cached {r : Replica} {id : String} {m : Message}
    (hcached : r.messages.peek? id = some m) : (Messages.select id r).1 = .ok (some m) := by
  unfold Messages.select
  rw [bind_apply, update_apply]
  simp only [EntityCache.get?, hcached, pure_apply]

/-! ## Reads of many keys -/

/-- A read of the database that the medium does not fail. -/
theorem Replica.fst_read_bind {α β : Type} {r : Replica} {c : StoreCall}
    {answer : Database → Except StoreError α} {f : α → β} (hf : r.faults c = none) :
    ((Replica.read c answer >>= fun a => pure (f a) : Action Replica β) r).1
      = (answer r.database).map f := by
  rw [bind_apply]
  unfold Replica.read Replica.call
  simp only [hf]
  cases answer r.database <;> rfl

/-- What is read for no keys. -/
theorem Database.readMany_nil {α : Type} (read : Row → Except StoreError α) (t : Table Row) :
    Database.readMany read t [] = .ok [] := by
  unfold Database.readMany
  rw [groupsOf]
  rfl

/-- Snapshots of the cached keys and entities of the others are what is shown of all keys. -/
theorem Shelf.shown_perm {α : Type} [Keyed α] {S : Shelf α} {r : Replica} {ks : List String}
    {stored : List α}
    (h : (stored.map S.part).Perm
      ((ks.filter fun k => ((S.cache r).peek? k).isNone).filterMap (S.stored r))) :
    ((ks.filterMap (S.cache r).peek? ++ stored).map S.part).Perm (ks.filterMap (S.shown r)) := by
  have hperm := hits_append_misses_perm (fun k => ((S.cache r).peek? k).map S.part) (S.stored r) ks
  simp only [Option.isNone_map] at hperm
  rw [List.map_append, List.map_filterMap]
  exact (h.append_left _).trans hperm

theorem nodup_firstOfKeys (ks : List String) : (firstOfKeys ks).Nodup := by
  have hkeys := nodup_keys_firstOfKeys ks
  rwa [show (firstOfKeys ks).map key = firstOfKeys ks from List.map_id _] at hkeys

/-- The distinct keys among these that are not cached. -/
def EntityCache.misses {α : Type} [Keyed α] (c : EntityCache α) (ks : List String) : List String :=
  (firstOfKeys ks).filter fun k => (c.peek? k).isNone

theorem EntityCache.nodup_misses {α : Type} [Keyed α] (c : EntityCache α) (ks : List String) :
    (c.misses ks).Nodup :=
  (nodup_firstOfKeys ks).filter _

section Many

variable {r : Replica}

theorem Replica.IsLegible.exists_channelsOf (hr : r.IsLegible) (cids : List String) :
    ∃ stored, r.database.channelsOf cids = .ok stored :=
  Database.exists_readMany (fun row hrow => by
    obtain ⟨c, hc, _⟩ := hr.channels.rows (Table.get?_of_mem hrow)
    exact ⟨c, hc⟩) cids

theorem Replica.IsLegible.exists_messagesOf (hr : r.IsLegible) (ids : List String) :
    ∃ stored, r.database.messagesOf ids = .ok stored :=
  Database.exists_readMany (fun row hrow => by
    obtain ⟨m, hm, _⟩ := hr.messages.rows (Table.get?_of_mem hrow)
    exact ⟨m, hm⟩) ids

/-- The cached users of some ids, and the stored ones of the others. -/
theorem Users.fst_selectMany (hf : r.IsFaultless) (ids : List String) :
    (Users.selectMany ids r).1 = (r.database.usersOf (r.users.misses ids)).map
      ((firstOfKeys ids).filterMap r.users.peek? ++ ·) := by
  obtain ⟨hfound, _⟩ := r.users.getAll_spec (firstOfKeys ids)
  unfold Users.selectMany EntityCache.misses
  rw [bind_apply, update_apply]
  simp only [hfound]
  split
  · next hempty =>
    rw [List.isEmpty_iff.1 hempty, Database.usersOf, Database.readMany_nil]
    exact congrArg Except.ok (List.append_nil _).symm
  · exact Replica.fst_read_bind (hf _)

/-- The cached channels of some keys, and the stored ones of the others. -/
theorem Channels.fst_selectMany (hf : r.IsFaultless) (cids : List String) :
    (Channels.selectMany cids r).1 = (r.database.channelsOf (r.channels.misses cids)).map
      ((firstOfKeys cids).filterMap r.channels.peek? ++ ·) := by
  obtain ⟨hfound, _⟩ := r.channels.getAll_spec (firstOfKeys cids)
  unfold Channels.selectMany EntityCache.misses
  rw [bind_apply, update_apply]
  simp only [hfound]
  split
  · next hempty =>
    rw [List.isEmpty_iff.1 hempty, Database.channelsOf, Database.readMany_nil]
    exact congrArg Except.ok (List.append_nil _).symm
  · exact Replica.fst_read_bind (hf _)

/-- The cached messages of some ids, and the stored ones of the others, completed. -/
theorem Messages.fst_selectMany (hf : r.IsFaultless) (hr : r.IsLegible) (ids : List String) :
    (Messages.selectMany ids r).1 = (r.database.messagesOf (r.messages.misses ids)).map
      fun stored => (firstOfKeys ids).filterMap r.messages.peek? ++ stored.map r.completed := by
  obtain ⟨hfound, _⟩ := r.messages.getAll_spec (firstOfKeys ids)
  unfold Messages.selectMany EntityCache.misses
  rw [bind_apply, update_apply]
  simp only [hfound]
  split
  · next hempty =>
    rw [List.isEmpty_iff.1 hempty, Database.messagesOf, Database.readMany_nil]
    exact congrArg Except.ok (List.append_nil _).symm
  · let misses := (firstOfKeys ids).filter fun k => (r.messages.peek? k).isNone
    let touched : Replica := { r with messages := (r.messages.getAll (firstOfKeys ids)).2 }
    have halike : r.Alike (touched.noted (.messages misses)) := ⟨rfl, rfl, rfl, rfl⟩
    obtain ⟨stored, hstored⟩ := hr.exists_messagesOf misses
    have hread : Replica.read (.messages misses) (fun db => db.messagesOf misses) touched
        = (.ok stored, touched.noted (.messages misses)) :=
      Replica.read_of_unfaulted (hf _) hstored
    obtain ⟨completed, r', hhydrate⟩ := Messages.exists_hydrate
      (r := touched.noted (.messages misses)) stored hf hr.hasReadableUsers
    obtain ⟨rfl, _⟩ := Messages.hydrate_ok hhydrate
    rw [halike.completed_eq] at hhydrate
    rw [hstored, bind_apply_ok hread, bind_apply_ok hhydrate]
    rfl

/-! ### What is shown of many keys -/

variable (hf : r.IsFaultless) (hr : r.IsLegible)
include hf hr

/-- The users that are found are those that are shown. -/
theorem Users.selectMany_shown (ids : List String) :
    ∃ found, (Users.selectMany ids r).1 = .ok found ∧
      found.Perm ((firstOfKeys ids).filterMap (userShelf.shown r)) := by
  obtain ⟨records, hrecords⟩ := Database.exists_readMany hr.hasReadableUsers (r.users.misses ids)
  have hperm := (Database.readMany_perm (r.users.nodup_misses ids) hrecords).map UserRecord.user
  rw [List.map_filterMap] at hperm
  have hstored : ((records.map UserRecord.user).map userShelf.part).Perm
      ((r.users.misses ids).filterMap (userShelf.stored r)) := by
    have hsame : (fun id => Option.map UserRecord.user ((r.database.users.get? id).bind fun row =>
        row.userRecord.toOption)) = userShelf.stored r :=
      funext fun id => (userShelf_stored r id).symm
    rw [hsame] at hperm
    simpa only [userShelf, List.map_id] using hperm
  have hshown := Shelf.shown_perm hstored
  refine ⟨(firstOfKeys ids).filterMap r.users.peek? ++ records.map UserRecord.user, ?_, ?_⟩
  · rw [Users.fst_selectMany hf, Database.usersOf, hrecords]
    rfl
  · simpa only [userShelf, List.map_id] using hshown

/-- The channels that are found are those that are shown. -/
theorem Channels.selectMany_shown (cids : List String) :
    ∃ found, (Channels.selectMany cids r).1 = .ok found ∧
      found.Perm ((firstOfKeys cids).filterMap (channelShelf.shown r)) := by
  obtain ⟨stored, hread⟩ := hr.exists_channelsOf (r.channels.misses cids)
  have hperm := Database.readMany_perm (r.channels.nodup_misses cids) hread
  have hstored : (stored.map channelShelf.part).Perm
      ((r.channels.misses cids).filterMap (channelShelf.stored r)) := by
    rw [show stored.map channelShelf.part = stored from List.map_id _]
    exact hperm
  have hshown := Shelf.shown_perm hstored
  refine ⟨(firstOfKeys cids).filterMap r.channels.peek? ++ stored, ?_, ?_⟩
  · rw [Channels.fst_selectMany hf, hread]
    rfl
  · simpa only [channelShelf, List.map_id] using hshown

/-- The messages that are found are those that are shown, except for their users. -/
theorem Messages.selectMany_shown (ids : List String) :
    ∃ found, (Messages.selectMany ids r).1 = .ok found ∧
      (found.map Message.withUserIds).Perm
        ((firstOfKeys ids).filterMap (messageShelf.shown r)) := by
  obtain ⟨stored, hread⟩ := hr.exists_messagesOf (r.messages.misses ids)
  have hperm := Database.readMany_perm (r.messages.nodup_misses ids) hread
  -- the messages that were read hold only the ids of their users already
  have hpart : (stored.map r.completed).map Message.withUserIds = stored := by
    rw [List.map_map]
    refine (List.map_congr_left fun m hm => ?_).trans (List.map_id _)
    obtain ⟨row, _, _, hrow⟩ := (Database.mem_of_readMany hread).1 hm
    exact (r.withUserIds_completed m).trans (Row.withUserIds_of_message hrow)
  have hstored : ((stored.map r.completed).map messageShelf.part).Perm
      ((r.messages.misses ids).filterMap (messageShelf.stored r)) := by
    simp only [messageShelf] at hpart ⊢
    rw [hpart]
    exact hperm
  have hshown := Shelf.shown_perm hstored
  refine ⟨(firstOfKeys ids).filterMap r.messages.peek? ++ stored.map r.completed, ?_, hshown⟩
  rw [Messages.fst_selectMany hf hr, hread]
  rfl

end Many

end OfflineChat
