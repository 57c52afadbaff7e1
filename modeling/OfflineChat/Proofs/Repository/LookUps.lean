import OfflineChat.Proofs.Repository.Shown

/-! # Looking up many keys

A repository looks keys up in its cache first and asks the database once for the others, each of them
once. Main definitions: `Replica.Gives`, the database answers a query for some keys; `IsLookUp`, what
is found for a list of keys; and `Shelf.LooksUp`, how a repository finds it. Main statement: in every
state all three repositories look keys up that way, whether or not keys are repeated
(`Replica.looks_up`). -/

set_option autoImplicit false

namespace OfflineChat

open OfflineChat.Action

/-! ## What is found for many keys -/

/-- What is found for some keys if `answer` is what there is for each of them: for each distinct key
that has an answer this and nothing else, and nothing for any other key. -/
structure IsLookUp {α : Type} [Keyed α] (ks : List String) (answer : String → Option α)
    (found : List α) : Prop where
  nodup : (found.map key).Nodup
  sound : ∀ a ∈ found, key a ∈ ks ∧ answer (key a) = some a
  complete : ∀ k ∈ ks, ∀ a, answer k = some a → a ∈ found ∧ key a = k

section

variable {α : Type} [Keyed α] {ks : List String} {answer : String → Option α}

/-- The answers to the distinct keys, in any order. -/
theorem isLookUp_of_perm {found : List α} (hkey : ∀ {k a}, answer k = some a → key a = k)
    (h : found.Perm ((firstOfKeys ks).filterMap answer)) : IsLookUp ks answer found where
  nodup := by
    refine (h.map key).nodup_iff.2 ?_
    rw [List.map_filterMap]
    refine List.Nodup.filterMap (fun k k' j hk hk' => ?_) (nodup_firstOfKeys ks)
    obtain ⟨a, ha, rfl⟩ := Option.map_eq_some_iff.1 hk
    obtain ⟨b, hb, hab⟩ := Option.map_eq_some_iff.1 hk'
    rw [← hkey ha, ← hab, hkey hb]
  sound a ha := by
    obtain ⟨k, hk, hanswer⟩ := List.mem_filterMap.1 (h.mem_iff.1 ha)
    obtain rfl : key a = k := hkey hanswer
    exact ⟨mem_firstOfKeys_iff.1 hk, hanswer⟩
  complete k hk a ha :=
    ⟨h.mem_iff.2 (List.mem_filterMap.2 ⟨k, mem_firstOfKeys_iff.2 hk, ha⟩), hkey ha⟩

end

/-! ## Reads of the keys that are not cached -/

/-- The reads that a query for these keys takes: none if there are no keys, else one. -/
def readsOf (query : List String → StoreCall) (ks : List String) : List StoreCall :=
  if ks.isEmpty then [] else [query ks]

namespace Replica

variable {α : Type} {r : Replica} {query : List String → StoreCall}
  {answer : Database → List String → Except StoreError (List α)} {ks : List String}
  {stored : List α}

/-- The database answers a query for these keys, unless there are none: then it is not asked. -/
def Gives (r : Replica) (query : List String → StoreCall)
    (answer : Database → List String → Except StoreError (List α)) (ks : List String)
    (stored : List α) : Prop :=
  answer r.database ks = .ok stored ∧ (ks ≠ [] → r.faults (query ks) = none)

/-- The users of these messages that are not cached. -/
def missedUsers (r : Replica) (messages : List Message) : List String :=
  r.users.misses (messages.flatMap Message.userIds)

/-- Messages can be completed: their users can be read as far as they are not cached. -/
def CanComplete (r : Replica) (messages : List Message) : Prop :=
  ∃ users, r.Gives .users Database.usersOf (r.missedUsers messages) users

/-- The part of a look-up that follows the look into the cache. -/
theorem read_of_gives {β : Type} (h : r.Gives query answer ks stored)
    (hnil : ∀ db, answer db [] = .ok []) (found : β) (rest : List α → Action Replica β)
    (hrest : ∀ s, rest [] s = (.ok found, s)) :
    (if ks.isEmpty then pure found else Replica.read (query ks) (answer · ks) >>= rest) r
      = rest stored { r with calls := readsOf query ks ++ r.calls } := by
  obtain ⟨hanswer, hfault⟩ := h
  unfold readsOf
  split
  · next hempty =>
    obtain rfl := List.isEmpty_iff.1 hempty
    rw [hnil] at hanswer
    rw [← Except.ok.inj hanswer, hrest]
    rfl
  · next hne =>
    have hread : Replica.read (query ks) (answer · ks) r = (.ok stored, r.noted (query ks)) :=
      read_of_unfaulted (hfault fun hk => hne (List.isEmpty_iff.2 hk)) hanswer
    exact bind_apply_ok hread

end Replica

namespace Shelf

variable {α : Type} [Keyed α]

/-- A repository has looked keys up: the cached snapshots, else the stored entities as they are
finished. It has asked the database once for the distinct keys that are not cached, if there are any,
and `further` are the reads that finishing took. What is cached and stored has not changed. -/
structure LooksUp (S : Shelf α) (finish : α → α) (query : List String → StoreCall)
    (further : List StoreCall) (ks : List String) (r : Replica) (found : List α) (r' : Replica) :
    Prop where
  found : IsLookUp ks (fun k => ((S.cache r).peek? k).or ((S.stored r k).map finish)) found
  calls : r'.calls = further ++ readsOf query ((S.cache r).misses ks) ++ r.calls
  onlyRead : r.OnlyRead r'

variable {S : Shelf α} {r r' : Replica} {ks : List String}

theorem key_of_stored {k : String} {a : α} (h : S.stored r k = some a) : key a = k := by
  obtain ⟨row, hrow, hread⟩ := Option.bind_eq_some_iff.1 h
  rw [S.key_read (toOption_eq_some_iff.1 hread), Table.key_of_get? hrow]

/-- The snapshots of the cached keys and the stored entities of the others are what there is for all
of them. -/
theorem isLookUp_hits_append (finish : α → α) (hfinish : ∀ a, key (finish a) = key a)
    {stored : List α} (h : stored.Perm (((S.cache r).misses ks).filterMap (S.stored r))) :
    IsLookUp ks (fun k => ((S.cache r).peek? k).or ((S.stored r k).map finish))
      ((firstOfKeys ks).filterMap (S.cache r).peek? ++ stored.map finish) := by
  refine isLookUp_of_perm (fun {k a} ha => ?_) ?_
  · rcases Option.or_eq_some_iff.1 ha with ha | ⟨_, ha⟩
    · exact EntityCache.key_of_peek? ha
    · obtain ⟨b, hb, rfl⟩ := Option.map_eq_some_iff.1 ha
      rw [hfinish, key_of_stored hb]
  · have hfinished := h.map finish
    rw [List.map_filterMap] at hfinished
    exact (hfinished.append_left _).trans (hits_append_misses_perm _ _ _)

end Shelf

/-! ## The three repositories -/

section Repositories

variable {r : Replica} {ks : List String}

theorem Database.usersOf_nil (db : Database) : db.usersOf [] = .ok [] := by
  rw [usersOf, readMany_nil]
  rfl

/-- The users that are read for the missed ids are the stored ones. -/
theorem Users.stored_perm {stored : List User}
    (h : r.database.usersOf (r.users.misses ks) = .ok stored) :
    stored.Perm ((r.users.misses ks).filterMap (userShelf.stored r)) := by
  obtain ⟨records, hrecords, rfl⟩ := map_eq_ok_iff.1 h
  have hperm := (Database.readMany_perm (r.users.nodup_misses ks) hrecords).map UserRecord.user
  rw [List.map_filterMap] at hperm
  rwa [show userShelf.stored r = _ from funext (userShelf_stored r)]

/-- Looking users up gives the cached ones and those that are read. -/
theorem Users.selectMany_of_gives {stored : List User}
    (h : r.Gives .users Database.usersOf (r.users.misses ks) stored) :
    ∃ r', Users.selectMany ks r = (.ok ((firstOfKeys ks).filterMap r.users.peek? ++ stored), r') ∧
      r'.calls = readsOf .users (r.users.misses ks) ++ r.calls := by
  obtain ⟨hfound, -⟩ := r.users.getAll_spec (firstOfKeys ks)
  let touched : Replica := { r with users := (r.users.getAll (firstOfKeys ks)).2 }
  have hread := Replica.read_of_gives (r := touched) h Database.usersOf_nil
    ((firstOfKeys ks).filterMap r.users.peek?)
    (fun stored => pure ((firstOfKeys ks).filterMap r.users.peek? ++ stored))
    fun s => by rw [List.append_nil, pure_apply]
  refine ⟨{ touched with calls := readsOf .users (r.users.misses ks) ++ r.calls }, ?_, rfl⟩
  unfold Users.selectMany
  rw [bind_apply, update_apply]
  simp only [hfound]
  exact hread

/-- Looking channels up gives the cached ones and those that are read. -/
theorem Channels.selectMany_of_gives {stored : List Channel}
    (h : r.Gives .channels Database.channelsOf (r.channels.misses ks) stored) :
    ∃ r', Channels.selectMany ks r
        = (.ok ((firstOfKeys ks).filterMap r.channels.peek? ++ stored), r') ∧
      r'.calls = readsOf .channels (r.channels.misses ks) ++ r.calls := by
  obtain ⟨hfound, -⟩ := r.channels.getAll_spec (firstOfKeys ks)
  let touched : Replica := { r with channels := (r.channels.getAll (firstOfKeys ks)).2 }
  have hread := Replica.read_of_gives (r := touched) h
    (fun db => Database.readMany_nil Row.channel db.channels)
    ((firstOfKeys ks).filterMap r.channels.peek?)
    (fun stored => pure ((firstOfKeys ks).filterMap r.channels.peek? ++ stored))
    fun s => by rw [List.append_nil, pure_apply]
  refine ⟨{ touched with calls := readsOf .channels (r.channels.misses ks) ++ r.calls }, ?_, rfl⟩
  unfold Channels.selectMany
  rw [bind_apply, update_apply]
  simp only [hfound]
  exact hread

/-- Completing messages takes one read of the users that are not cached, if there are any. -/
theorem Messages.hydrate_of_canComplete {messages : List Message} (h : r.CanComplete messages) :
    ∃ r', Messages.hydrate messages r = (.ok (messages.map r.completed), r') ∧
      r'.calls = readsOf .users (r.missedUsers messages) ++ r.calls := by
  have hsome : ∃ completed r', Messages.hydrate messages r = (.ok completed, r') ∧
      r'.calls = readsOf .users (r.missedUsers messages) ++ r.calls := by
    unfold Messages.hydrate
    split
    · next hempty =>
      rw [List.isEmpty_iff.1 hempty]
      exact ⟨_, _, rfl, rfl⟩
    · obtain ⟨users, husers⟩ := h
      obtain ⟨r', hselect, hcalls⟩ := Users.selectMany_of_gives husers
      have hdirectory := bind_apply_ok (f := fun users => do
        let r ← get
        pure ((Table.ofList users).putAll r.currentUser.toList)) hselect
      exact ⟨_, r', bind_apply_ok hdirectory, hcalls⟩
  obtain ⟨completed, r', hhydrate, hcalls⟩ := hsome
  obtain ⟨rfl, -⟩ := Messages.hydrate_ok hhydrate
  exact ⟨r', hhydrate, hcalls⟩

/-- Looking messages up gives the cached ones and those that are read, completed. -/
theorem Messages.selectMany_of_gives {stored : List Message}
    (h : r.Gives .messages Database.messagesOf (r.messages.misses ks) stored)
    (hcomplete : r.CanComplete stored) :
    ∃ r', Messages.selectMany ks r
        = (.ok ((firstOfKeys ks).filterMap r.messages.peek? ++ stored.map r.completed), r') ∧
      r'.calls = readsOf .users (r.missedUsers stored) ++
        readsOf .messages (r.messages.misses ks) ++ r.calls := by
  obtain ⟨hfound, -⟩ := r.messages.getAll_spec (firstOfKeys ks)
  let touched : Replica := { r with messages := (r.messages.getAll (firstOfKeys ks)).2 }
  let asked : Replica :=
    { touched with calls := readsOf .messages (r.messages.misses ks) ++ r.calls }
  have hread := Replica.read_of_gives (r := touched) h
    (fun db => Database.readMany_nil Row.message db.messages)
    ((firstOfKeys ks).filterMap r.messages.peek?)
    (fun stored => do
      let completed ← Messages.hydrate stored
      pure ((firstOfKeys ks).filterMap r.messages.peek? ++ completed))
    fun s => by simp [bind_apply, Messages.hydrate]
  obtain ⟨r', hhydrate, hcalls⟩ := Messages.hydrate_of_canComplete (r := asked) hcomplete
  have halike : r.Alike asked := ⟨rfl, rfl, rfl, rfl⟩
  rw [halike.completed_eq] at hhydrate
  refine ⟨r', ?_, hcalls.trans (List.append_assoc _ _ _).symm⟩
  unfold Messages.selectMany
  rw [bind_apply, update_apply]
  simp only [hfound]
  refine hread.trans ?_
  exact bind_apply_ok hhydrate

end Repositories

/-- **Looking many keys up neither loses nor repeats.** In every state, for any list of keys and if
the reads succeed: each distinct key that is cached or stored gives one entity, the snapshot if it is
cached; no other key gives any; the database is asked once for the distinct keys that are not cached,
in the order in which they occur first, and not at all if there are none; and nothing but recency
changes. Stored messages are completed, which takes a read of the users that are not cached. -/
theorem Replica.looks_up (r : Replica) (ks : List String) :
    (∀ stored, r.Gives .users Database.usersOf (r.users.misses ks) stored →
      ∃ found r', Users.selectMany ks r = (.ok found, r') ∧
        userShelf.LooksUp id .users [] ks r found r') ∧
    (∀ stored, r.Gives .channels Database.channelsOf (r.channels.misses ks) stored →
      ∃ found r', Channels.selectMany ks r = (.ok found, r') ∧
        channelShelf.LooksUp id .channels [] ks r found r') ∧
    (∀ stored, r.Gives .messages Database.messagesOf (r.messages.misses ks) stored →
      r.CanComplete stored →
      ∃ found r', Messages.selectMany ks r = (.ok found, r') ∧
        messageShelf.LooksUp r.completed .messages (readsOf .users (r.missedUsers stored)) ks r
          found r') := by
  refine ⟨fun stored h => ?_, fun stored h => ?_, fun stored h hcomplete => ?_⟩
  · obtain ⟨r', hselect, hcalls⟩ := Users.selectMany_of_gives h
    have hread := Users.reads_selectMany ks r
    rw [hselect] at hread
    have hfound := userShelf.isLookUp_hits_append id (fun _ => rfl)
      (Users.stored_perm h.1)
    rw [List.map_id] at hfound
    exact ⟨_, r', hselect, hfound, hcalls, hread⟩
  · obtain ⟨r', hselect, hcalls⟩ := Channels.selectMany_of_gives h
    have hread := Channels.reads_selectMany ks r
    rw [hselect] at hread
    have hfound := channelShelf.isLookUp_hits_append id (fun _ => rfl)
      (Database.readMany_perm (r.channels.nodup_misses ks) h.1)
    rw [List.map_id] at hfound
    exact ⟨_, r', hselect, hfound, hcalls, hread⟩
  · obtain ⟨r', hselect, hcalls⟩ := Messages.selectMany_of_gives h hcomplete
    have hread := Messages.reads_selectMany ks r
    rw [hselect] at hread
    exact ⟨_, r', hselect, messageShelf.isLookUp_hits_append _ r.key_completed
      (Database.readMany_perm (r.messages.nodup_misses ks) h.1), hcalls, hread⟩

/-- A banned user. -/
def bannedUser (id : String) : User := { User.new id with banned := true }

/-- A replica that has cached one user, whose ban is not stored, and has only stored another one. -/
def cachesOne : Replica :=
  { Replica.new ((Database.create none).putUsers [.new "far", .new "old"]) none 1 1 1 with
    users := (EntityCache.new 1).put (bannedUser "old") }

/-- A repeated key is asked for once, and an unknown one gives nothing. -/
theorem looks_up_cachesOne :
    ∃ found r', Users.selectMany ["far", "old", "gone", "far"] cachesOne = (.ok found, r') ∧
      found.Perm [bannedUser "old", .new "far"] ∧ r'.calls = [.users ["far", "gone"]] := by
  have hgroups : groupsOf (maxKeysPerQuery - 1) ["far", "gone"] = [["far", "gone"]] := by
    simp [groupsOf, maxKeysPerQuery]
  have husers : cachesOne.database.usersOf ["far", "gone"] = .ok [.new "far"] := by
    show (Database.readRows _ ((groupsOf _ ["far", "gone"]).flatMap _)).map _ = _
    rw [hgroups]
    rfl
  obtain ⟨found, r', hselect, hfound, hcalls, -⟩ :=
    (Replica.looks_up cachesOne ["far", "old", "gone", "far"]).1 [.new "far"]
      ⟨husers, fun _ => rfl⟩
  have hdistinct : [bannedUser "old", User.new "far"].Nodup := .of_map key (by decide)
  refine ⟨found, r', hselect, (List.perm_ext_iff_of_nodup hfound.nodup.of_map hdistinct).2
    fun u => ⟨fun hu => ?_, fun hu => ?_⟩, hcalls⟩
  · obtain ⟨hkey, hanswer⟩ := hfound.sound u hu
    generalize key u = k at hkey hanswer
    simp only [List.mem_cons, List.not_mem_nil, or_false] at hkey
    rcases hkey with rfl | rfl | rfl | rfl
    · exact Option.some.inj hanswer ▸ List.mem_cons_of_mem _ List.mem_cons_self
    · exact Option.some.inj hanswer ▸ List.mem_cons_self
    · exact absurd hanswer (Option.not_mem_none u)
    · exact Option.some.inj hanswer ▸ List.mem_cons_of_mem _ List.mem_cons_self
  · rcases List.mem_pair.1 hu with rfl | rfl
    · exact (hfound.complete "old" (by decide) (bannedUser "old") rfl).1
    · exact (hfound.complete "far" (by decide) (.new "far") rfl).1

end OfflineChat
