import OfflineChat.Proofs.Store.RowReading
import OfflineChat.Proofs.Store.Selection
import OfflineChat.Repository.Messages

/-! # How messages are completed

A message that is read from the database gets the users that the replica knows: the current user,
else the cached one, else the stored one. Main definition: `Replica.knownUser?`. Main statements: a
directory of users answers as `knownUser?` does (`Users.directory_ok`), and completing messages is
completing each of them, with nothing but the recency of users changed (`Messages.hydrate_ok`). -/

set_option autoImplicit false

namespace OfflineChat

/-! ## Calls -/

namespace Replica

variable {α : Type} {c : StoreCall} {r r' : Replica}

/-- The replica after one more call. -/
def noted (r : Replica) (c : StoreCall) : Replica := { r with calls := c :: r.calls }

theorem read_ok {answer : Database → Except StoreError α} {a : α}
    (h : read c answer r = (.ok a, r')) : answer r.database = .ok a ∧ r' = r.noted c := by
  unfold read call at h
  cases hf : r.faults c with
  | some e => simp only [hf] at h; exact absurd (congrArg Prod.fst h) (by simp)
  | none =>
      simp only [hf, Prod.mk.injEq] at h
      exact ⟨h.1, h.2.symm⟩

theorem read_error {answer : Database → Except StoreError α} {e : StoreError}
    (h : read c answer r = (.error e, r')) : r' = r.noted c := by
  unfold read call at h
  cases hf : r.faults c <;> simp only [hf, Prod.mk.injEq] at h <;> exact h.2.symm

theorem read_of_unfaulted {answer : Database → Except StoreError α} {a : α}
    (h : r.faults c = none) (ha : answer r.database = .ok a) :
    read c answer r = (.ok a, r.noted c) := by
  simp only [read, call, h, ha]
  rfl

theorem write_ok {change : Database → Database} (h : write c change r = (.ok (), r')) :
    r' = { r.noted c with database := change r.database } := by
  unfold write call at h
  cases hf : r.faults c with
  | some e => simp only [hf] at h; exact absurd (congrArg Prod.fst h) (by simp)
  | none =>
      simp only [hf, Prod.mk.injEq] at h
      exact h.2.symm

theorem write_error {change : Database → Database} {e : StoreError}
    (h : write c change r = (.error e, r')) : r' = r.noted c := by
  unfold write call at h
  cases hf : r.faults c with
  | some e => simp only [hf, Prod.mk.injEq] at h; exact h.2.symm
  | none => simp only [hf] at h; exact absurd (congrArg Prod.fst h) (by simp)

theorem write_of_unfaulted {change : Database → Database} (h : r.faults c = none) :
    write c change r = (.ok (), { r.noted c with database := change r.database }) := by
  simp only [write, call, h]
  rfl

/-- No call fails because of the medium. -/
def IsFaultless (r : Replica) : Prop := ∀ call, r.faults call = none

/-- Every stored user can be read. -/
def HasReadableUsers (r : Replica) : Prop :=
  ∀ row ∈ r.database.users.rows, ∃ record, row.userRecord = .ok record

/-! ## Known users -/

/-- The stored user of an id, if there is one that can be read. -/
def storedUser? (r : Replica) (id : String) : Option User :=
  (r.database.users.get? id).bind fun row => row.userRecord.toOption.map UserRecord.user

/-- What a replica knows of a user: the current user is not looked up, and a cached user comes
before a stored one. -/
def knownUser? (r : Replica) (id : String) : Option User :=
  ((r.currentUser.filter fun u => u.id == id).or (r.users.peek? id)).or (r.storedUser? id)

/-- The message with the users that a replica knows. -/
def completed (r : Replica) (m : Message) : Message :=
  let known (u : User) : User := (r.knownUser? u.id).getD u
  { m with user := known m.user, mentionedUsers := m.mentionedUsers.map known }

/-- Two replicas know the same users, and the same calls fail. -/
structure Alike (r r' : Replica) : Prop where
  faults_eq : r'.faults = r.faults
  currentUser_eq : r'.currentUser = r.currentUser
  cached_eq : r'.users.peek? = r.users.peek?
  stored_eq : r'.database.users = r.database.users

theorem alike_noted (r : Replica) (c : StoreCall) : r.Alike (r.noted c) := ⟨rfl, rfl, rfl, rfl⟩

theorem Alike.refl (r : Replica) : r.Alike r := ⟨rfl, rfl, rfl, rfl⟩

theorem Alike.trans {r'' : Replica} (h : r.Alike r') (h' : r'.Alike r'') : r.Alike r'' where
  faults_eq := h'.faults_eq.trans h.faults_eq
  currentUser_eq := h'.currentUser_eq.trans h.currentUser_eq
  cached_eq := h'.cached_eq.trans h.cached_eq
  stored_eq := h'.stored_eq.trans h.stored_eq

theorem Alike.completed_eq (h : r.Alike r') : r'.completed = r.completed := by
  unfold completed knownUser? storedUser?
  rw [h.currentUser_eq, h.cached_eq, h.stored_eq]

theorem storedUser?_eq_some_iff {id : String} {u : User} :
    r.storedUser? id = some u ↔ ∃ row ∈ r.database.users.rows, key row = id ∧
      ∃ record, row.userRecord = .ok record ∧ record.user = u := by
  unfold storedUser?
  rw [Option.bind_eq_some_iff]
  constructor
  · rintro ⟨row, hrow, h⟩
    obtain ⟨record, hrecord, rfl⟩ := Option.map_eq_some_iff.1 h
    exact ⟨row, Table.mem_of_get? hrow, Table.key_of_get? hrow, record,
      toOption_eq_some_iff.1 hrecord, rfl⟩
  · rintro ⟨row, hrow, rfl, record, hrecord, rfl⟩
    refine ⟨row, Table.get?_of_mem hrow, ?_⟩
    rw [hrecord]
    rfl

theorem id_of_storedUser? {id : String} {u : User} (h : r.storedUser? id = some u) :
    u.id = id := by
  obtain ⟨row, _, rfl, record, hrecord, rfl⟩ := storedUser?_eq_some_iff.1 h
  exact Row.key_of_userRecord hrecord

/-- A user that is known under an id has that id. -/
theorem id_of_knownUser? {id : String} {u : User} (h : r.knownUser? id = some u) : u.id = id := by
  unfold knownUser? at h
  rcases Option.or_eq_some_iff.1 h with h | ⟨_, h⟩
  · rcases Option.or_eq_some_iff.1 h with h | ⟨_, h⟩
    · exact beq_iff_eq.1 (Option.filter_eq_some_iff.1 h).2
    · exact EntityCache.key_of_peek? h
  · exact id_of_storedUser? h

@[simp] theorem key_completed (r : Replica) (m : Message) : key (r.completed m) = key m := rfl

@[simp] theorem status_completed (r : Replica) (m : Message) :
    (r.completed m).syncStatus = m.syncStatus := rfl

@[simp] theorem cid_completed (r : Replica) (m : Message) : (r.completed m).cid = m.cid := rfl

end Replica

/-! ## Cached entities -/

theorem mem_firstOfKeys_iff {k : String} {ks : List String} : k ∈ firstOfKeys ks ↔ k ∈ ks := by
  have hkeys : k ∈ (firstOfKeys ks).map key ↔ k ∈ ks.map key := mem_keys_firstOfKeys
  have hself : ∀ l : List String, l.map key = l := List.map_id
  rwa [hself, hself] at hkeys

/-- Looking keys up sorts them into those that are cached and those that are not. -/
theorem EntityCache.getAll_spec {α : Type} [Keyed α] (c : EntityCache α) (ks : List String) :
    (c.getAll ks).1 = (ks.filterMap c.peek?, ks.filter fun k => (c.peek? k).isNone) ∧
      (c.getAll ks).2.peek? = c.peek? := by
  induction ks generalizing c with
  | nil => exact ⟨rfl, rfl⟩
  | cons k ks ih =>
      obtain ⟨hfound, hpeek⟩ := ih (c.touch k)
      have htouch : (c.touch k).peek? = c.peek? := funext fun j => c.peek?_touch k j
      rw [htouch] at hfound hpeek
      cases hk : c.peek? k <;> simp only [getAll, get?, hk]
      · refine ⟨?_, hpeek⟩
        rw [List.filterMap_cons_none hk, List.filter_cons_of_pos (by simp [hk])]
        exact congrArg (fun found => (found.1, k :: found.2)) hfound
      · refine ⟨?_, hpeek⟩
        rw [List.filterMap_cons_some hk, List.filter_cons_of_neg (by simp [hk])]
        exact congrArg (fun found => (_ :: found.1, found.2)) hfound

/-! ## Directories -/

namespace Users

variable {ids : List String} {r r' : Replica}

/-- The users of these rows and these ids. -/
theorem mem_usersOf {db : Database} {users : List User} (h : db.usersOf ids = .ok users)
    {u : User} : u ∈ users ↔ ∃ row ∈ db.users.rows, key row ∈ ids ∧
      ∃ record, row.userRecord = .ok record ∧ record.user = u := by
  unfold Database.usersOf at h
  cases hread : Database.readMany Row.userRecord db.users ids with
  | error e => rw [hread] at h; exact nomatch h
  | ok records =>
      rw [hread] at h
      rw [← Except.ok.inj h, List.mem_map]
      constructor
      · rintro ⟨record, hrecord, rfl⟩
        obtain ⟨row, hrow, hkey, hr⟩ := (Database.mem_of_readMany hread).1 hrecord
        exact ⟨row, hrow, hkey, record, hr, rfl⟩
      · rintro ⟨row, hrow, hkey, record, hr, rfl⟩
        exact ⟨record, (Database.mem_of_readMany hread).2 ⟨row, hrow, hkey, hr⟩, rfl⟩

/-- The users among those asked for that are cached. -/
theorem mem_hits {u : User} : u ∈ (firstOfKeys ids).filterMap r.users.peek? ↔
    u.id ∈ ids ∧ r.users.peek? u.id = some u := by
  rw [List.mem_filterMap]
  constructor
  · rintro ⟨k, hk, hu⟩
    obtain rfl : u.id = k := EntityCache.key_of_peek? hu
    exact ⟨mem_of_mem_firstOfKeys hk, hu⟩
  · rintro ⟨hk, hu⟩
    exact ⟨u.id, mem_firstOfKeys_iff.2 hk, hu⟩

/-- The ids among those asked for that are not cached. -/
theorem mem_misses {k : String} :
    k ∈ (firstOfKeys ids).filter (fun k => (r.users.peek? k).isNone) ↔
      k ∈ ids ∧ r.users.peek? k = none := by
  rw [List.mem_filter, mem_firstOfKeys_iff, Option.isNone_iff_eq_none]

/-- The users that were read for the ids that are not cached. -/
theorem mem_usersOf_misses {users : List User} (h : r.database.usersOf
      ((firstOfKeys ids).filter fun k => (r.users.peek? k).isNone) = .ok users) {u : User} :
    u ∈ users ↔ (u.id ∈ ids ∧ r.users.peek? u.id = none) ∧ r.storedUser? u.id = some u := by
  rw [mem_usersOf h, Replica.storedUser?_eq_some_iff, ← mem_misses]
  constructor
  · rintro ⟨row, hrow, hkey, record, hr, rfl⟩
    have hid : record.user.id = key row := Row.key_of_userRecord hr
    exact ⟨hid ▸ hkey, row, hrow, hid.symm, record, hr, rfl⟩
  · rintro ⟨hkey, row, hrow, hid, record, hr, rfl⟩
    exact ⟨row, hrow, hid ▸ hkey, record, hr, rfl⟩

/-- The users that were found for some ids are those that are cached, and of the others those that
are stored. -/
theorem selectMany_ok {users : List User} (h : selectMany ids r = (.ok users, r')) :
    (∀ u, u ∈ users ↔ u.id ∈ ids ∧ (r.users.peek? u.id).or (r.storedUser? u.id) = some u) ∧
      r'.database = r.database ∧ r.Alike r' := by
  obtain ⟨hfound, hpeek⟩ := r.users.getAll_spec (firstOfKeys ids)
  simp only [selectMany, Action.bind_apply, Action.update_apply, hfound] at h
  split at h
  · -- every id is cached
    next hnone =>
    have hcached : ∀ k ∈ ids, r.users.peek? k ≠ none := by
      intro k hk hn
      have hm : k ∈ (firstOfKeys ids).filter (fun k => (r.users.peek? k).isNone) :=
        mem_misses.2 ⟨hk, hn⟩
      rw [List.isEmpty_iff.1 hnone] at hm
      exact absurd hm (by simp)
    simp only [Action.pure_apply, Prod.mk.injEq, Except.ok.injEq] at h
    obtain ⟨rfl, rfl⟩ := h
    refine ⟨fun u => ?_, rfl, rfl, rfl, hpeek, rfl⟩
    rw [mem_hits, Option.or_eq_some_iff]
    constructor
    · rintro ⟨hk, hu⟩
      exact ⟨hk, .inl hu⟩
    · rintro ⟨hk, hu | ⟨hu, _⟩⟩
      · exact ⟨hk, hu⟩
      · exact absurd hu (hcached _ hk)
  · rw [Action.bind_apply] at h
    split at h
    · next stored s hread =>
      obtain ⟨hstored, rfl⟩ := Replica.read_ok hread
      simp only [Action.pure_apply, Prod.mk.injEq, Except.ok.injEq] at h
      obtain ⟨rfl, rfl⟩ := h
      refine ⟨fun u => ?_, rfl, rfl, rfl, hpeek, rfl⟩
      have hread : r.database.usersOf
          ((firstOfKeys ids).filter fun k => (r.users.peek? k).isNone) = .ok stored := hstored
      rw [List.mem_append, mem_hits, mem_usersOf_misses hread, Option.or_eq_some_iff]
      constructor
      · rintro (⟨hk, hu⟩ | ⟨⟨hk, hn⟩, hu⟩)
        · exact ⟨hk, .inl hu⟩
        · exact ⟨hk, .inr ⟨hn, hu⟩⟩
      · rintro ⟨hk, hu | ⟨hn, hu⟩⟩
        · exact .inl ⟨hk, hu⟩
        · exact .inr ⟨⟨hk, hn⟩, hu⟩
    · exact absurd (congrArg Prod.fst h) (by simp)

/-- A failure to find users changes no more than their recency. -/
theorem selectMany_error {e : StoreError} (h : selectMany ids r = (.error e, r')) :
    r'.database = r.database ∧ r.Alike r' := by
  obtain ⟨hfound, hpeek⟩ := r.users.getAll_spec (firstOfKeys ids)
  simp only [selectMany, Action.bind_apply, Action.update_apply] at h
  split at h
  · exact absurd (congrArg Prod.fst h) (by simp)
  · rw [Action.bind_apply] at h
    split at h
    · exact absurd (congrArg Prod.fst h) (by simp)
    · next hread =>
      obtain rfl := Replica.read_error hread
      simp only [Prod.mk.injEq] at h
      obtain ⟨_, rfl⟩ := h
      exact ⟨rfl, rfl, rfl, hpeek, rfl⟩

/-- Users are found unless the medium fails the call or a stored user cannot be read. -/
theorem exists_selectMany (ids : List String) (hf : r.IsFaultless) (hu : r.HasReadableUsers) :
    ∃ users r', selectMany ids r = (.ok users, r') := by
  simp only [selectMany, Action.bind_apply, Action.update_apply]
  split
  · exact ⟨_, _, rfl⟩
  · let misses := (r.users.getAll (firstOfKeys ids)).1.2
    let touched : Replica := { r with users := (r.users.getAll (firstOfKeys ids)).2 }
    obtain ⟨records, hrecords⟩ := Database.exists_readMany hu misses
    have hstored : r.database.usersOf misses = .ok (records.map UserRecord.user) :=
      congrArg (Except.map _) hrecords
    have hread : Replica.read (.users misses) (fun db => db.usersOf misses) touched
        = (.ok (records.map UserRecord.user), touched.noted (.users misses)) :=
      Replica.read_of_unfaulted (hf _) hstored
    exact ⟨_, _, Action.bind_apply_ok hread⟩

/-- Users that were found agree with one another, so the last one of an id is as good as any. -/
theorem get?_ofList_found {users : List User}
    (hmem : ∀ u, u ∈ users ↔ u.id ∈ ids ∧ (r.users.peek? u.id).or (r.storedUser? u.id) = some u)
    {id : String} (hid : id ∈ ids) :
    (Table.ofList users).get? id = (r.users.peek? id).or (r.storedUser? id) := by
  cases hu : (r.users.peek? id).or (r.storedUser? id) with
  | none =>
      refine Table.get?_putAll_of_not_mem _ fun hk => ?_
      obtain ⟨u, hmu, rfl⟩ := List.mem_map.1 hk
      have hsome := ((hmem u).1 hmu).2
      rw [key_user] at hu
      exact absurd (hu.symm.trans hsome) (by simp)
  | some u =>
      have hku : u.id = id := by
        rcases Option.or_eq_some_iff.1 hu with hp | ⟨_, hp⟩
        · exact EntityCache.key_of_peek? hp
        · exact Replica.id_of_storedUser? hp
      subst hku
      refine Table.get?_putAll_of_forall _ ((hmem u).2 ⟨hid, hu⟩) fun v hv hkey => ?_
      have hsome := ((hmem v).1 hv).2
      rw [show v.id = u.id from hkey, hu] at hsome
      exact (Option.some.inj hsome).symm

/-- **A directory knows what the replica knows.** -/
theorem directory_ok {directory : Table User} (h : Users.directory ids r = (.ok directory, r')) :
    (∀ id ∈ ids, directory.get? id = r.knownUser? id) ∧
      r'.database = r.database ∧ r.Alike r' := by
  unfold Users.directory at h
  rw [Action.bind_apply] at h
  split at h
  · next users s hsel =>
    obtain ⟨hmem, hdatabase, hsame⟩ := selectMany_ok hsel
    simp only [Action.bind_apply, Action.get_apply, Action.pure_apply, Prod.mk.injEq,
      Except.ok.injEq] at h
    obtain ⟨rfl, rfl⟩ := h
    refine ⟨fun id hid => ?_, hdatabase, hsame⟩
    rw [hsame.currentUser_eq]
    have hfound := get?_ofList_found hmem hid
    -- the current user is put over the others
    cases hc : r.currentUser with
    | none => simpa [Replica.knownUser?, hc] using hfound
    | some me =>
        by_cases hme : me.id = id
        · subst hme
          have hself : ((Table.ofList users).put me).get? me.id = some me :=
            Table.get?_put_self _ me
          simpa [Replica.knownUser?, hc, Option.filter] using hself
        · have hother : ((Table.ofList users).put me).get? id = (Table.ofList users).get? id :=
            Table.get?_put_of_ne _ hme
          simpa [Replica.knownUser?, hc, Option.filter, hme, hfound] using hother
  · exact absurd (congrArg Prod.fst h) (by simp)

/-- A directory that fails changes no more than the recency of users. -/
theorem directory_error {e : StoreError} (h : Users.directory ids r = (.error e, r')) :
    r'.database = r.database ∧ r.Alike r' := by
  unfold Users.directory at h
  rw [Action.bind_apply] at h
  split at h
  · exact absurd (congrArg Prod.fst h) (by simp [Action.bind_apply])
  · next hsel =>
    simp only [Prod.mk.injEq] at h
    obtain ⟨_, rfl⟩ := h
    exact selectMany_error hsel

theorem exists_directory (ids : List String) (hf : r.IsFaultless) (hu : r.HasReadableUsers) :
    ∃ directory r', Users.directory ids r = (.ok directory, r') := by
  obtain ⟨users, r', h⟩ := exists_selectMany ids hf hu
  unfold Users.directory
  rw [Action.bind_apply_ok h]
  exact ⟨_, _, rfl⟩

end Users

/-! ## Messages -/

namespace Messages

variable {messages : List Message} {r r' : Replica}

/-- **Completing messages is completing each of them.** -/
theorem hydrate_ok {completed : List Message} (h : hydrate messages r = (.ok completed, r')) :
    completed = messages.map r.completed ∧
      r'.database = r.database ∧ r.Alike r' := by
  unfold hydrate at h
  split at h
  · next hempty =>
    simp only [Action.pure_apply, Prod.mk.injEq, Except.ok.injEq] at h
    obtain ⟨rfl, rfl⟩ := h
    rw [List.isEmpty_iff.1 hempty]
    exact ⟨rfl, rfl, Replica.Alike.refl r⟩
  · rw [Action.bind_apply] at h
    split at h
    · next directory s hdir =>
      obtain ⟨hget, hframe⟩ := Users.directory_ok hdir
      simp only [Action.pure_apply, Prod.mk.injEq, Except.ok.injEq] at h
      obtain ⟨rfl, rfl⟩ := h
      refine ⟨List.map_congr_left fun m hm => ?_, hframe⟩
      have hknown : ∀ u : User, u.id ∈ m.userIds → directory.get? u.id = r.knownUser? u.id :=
        fun u hu => hget u.id (List.mem_flatMap.2 ⟨m, hm, hu⟩)
      have hauthor := hknown m.user (List.mem_cons_self ..)
      have hmentioned : m.mentionedUsers.map (fun u : User => (directory.get? u.id).getD u)
          = m.mentionedUsers.map fun u : User => (r.knownUser? u.id).getD u := by
        refine List.map_congr_left fun u hu => ?_
        rw [hknown u (List.mem_cons_of_mem _ (List.mem_map_of_mem hu))]
      unfold Message.withUsers Replica.completed
      simp only [hauthor, hmentioned]
    · exact absurd (congrArg Prod.fst h) (by simp)

theorem hydrate_error {e : StoreError} (h : hydrate messages r = (.error e, r')) :
    r'.database = r.database ∧ r.Alike r' := by
  unfold hydrate at h
  split at h
  · exact absurd (congrArg Prod.fst h) (by simp)
  · rw [Action.bind_apply] at h
    split at h
    · exact absurd (congrArg Prod.fst h) (by simp)
    · next hdir =>
      simp only [Prod.mk.injEq] at h
      obtain ⟨_, rfl⟩ := h
      exact Users.directory_error hdir

theorem exists_hydrate (messages : List Message) (hf : r.IsFaultless) (hu : r.HasReadableUsers) :
    ∃ completed r', hydrate messages r = (.ok completed, r') := by
  unfold hydrate
  split
  · exact ⟨_, _, rfl⟩
  · obtain ⟨directory, r', h⟩ := Users.exists_directory (messages.flatMap Message.userIds) hf hu
    rw [Action.bind_apply_ok h]
    exact ⟨_, _, rfl⟩

end Messages

end OfflineChat
