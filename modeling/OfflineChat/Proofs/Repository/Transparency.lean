import OfflineChat.Proofs.Repository.Lawful

/-! # The caches of channels and users are transparent

As long as no write fails, a cached channel or user is the one that its row holds, so that no read
can tell whether it was answered from the cache. Main definition: `Replica.HasTransparentCaches`.
Main statement: `Replica.hasTransparentCaches`, of every run of the application. -/

set_option autoImplicit false

namespace OfflineChat.Replica

/-- The caches of channels and users show what the database holds. The row of the session user is
written past the cache, so nothing is said of that user's id. -/
structure HasTransparentCaches (r : Replica) : Prop where
  /-- A cached channel is filed under its own key, and is the stored one. -/
  channel_cached : ∀ {cid c}, r.channels.peek? cid = some c →
    c.cid = cid ∧ r.database.channel? cid = .ok (some c)
  /-- A cached user is filed under the own id. -/
  id_of_cached : ∀ {id u}, r.users.peek? id = some u → u.id = id
  user_cached : ∀ {id u}, id ≠ sessionUserId → r.users.peek? id = some u →
    (r.database.userRecord? id).map (Option.map UserRecord.user) = .ok (some u)
  select_channel : ∀ cid, ∃ found, (Channels.select cid r).1 = .ok found ∧
    (Channels.select cid r.clearCaches).1 = .ok found
  selectMany_channels : ∀ cids, ∃ found fresh, (Channels.selectMany cids r).1 = .ok found ∧
    (Channels.selectMany cids r.clearCaches).1 = .ok fresh ∧ found.Perm fresh
  select_user : ∀ {id}, id ≠ sessionUserId → ∃ found, (Users.select id r).1 = .ok found ∧
    (Users.select id r.clearCaches).1 = .ok found
  selectMany_users : ∀ {ids}, sessionUserId ∉ ids → ∃ found fresh,
    (Users.selectMany ids r).1 = .ok found ∧
    (Users.selectMany ids r.clearCaches).1 = .ok fresh ∧ found.Perm fresh

theorem IsLegible.clearCaches {r : Replica} (h : r.IsLegible) : r.clearCaches.IsLegible := by
  show (Operation.apply .clearCaches r).IsLegible
  exact h.apply trivial

theorem IsFaultless.clearCaches {r : Replica} (h : r.IsFaultless) : r.clearCaches.IsFaultless := h

section Clearing

variable {r : Replica} {k : String}

/-- A faithful cache of channels shows what is shown without it. -/
theorem channel_shown_clearCaches (h : channelShelf.Faithful r k) :
    channelShelf.shown r k = channelShelf.shown r.clearCaches k :=
  Shelf.shown_eq_of_faithful h (Shelf.faithful_of_uncached rfl) rfl

/-- A faithful cache of users shows what is shown without it. -/
theorem user_shown_clearCaches (h : userShelf.Faithful r k) :
    userShelf.shown r k = userShelf.shown r.clearCaches k :=
  Shelf.shown_eq_of_faithful h (Shelf.faithful_of_uncached rfl) rfl

end Clearing

/-- Caches that are faithful are transparent. -/
theorem IsLegible.transparent_of_faithful {r : Replica} (hr : r.IsLegible) (hf : r.IsFaultless)
    (hchannels : ∀ cid, channelShelf.Faithful r cid)
    (husers : ∀ id, id ≠ sessionUserId → userShelf.Faithful r id) : r.HasTransparentCaches where
  channel_cached {cid c} hcached := by
    have hstored : channelShelf.stored r cid = some c := hchannels cid c hcached
    have hread : r.database.channel? cid = .ok (channelShelf.stored r cid) :=
      Database.readOne_of_readable fun hrow => by
        obtain ⟨c, hc, _⟩ := hr.channels.rows hrow
        exact ⟨c, hc⟩
    exact ⟨EntityCache.key_of_peek? hcached, hstored ▸ hread⟩
  id_of_cached := EntityCache.key_of_peek?
  user_cached {id u} hid hcached := by
    have hstored : userShelf.stored r id = some u := husers id hid u hcached
    have hread : r.database.userRecord? id
        = .ok ((r.database.users.get? id).bind fun row => row.userRecord.toOption) :=
      Database.readOne_of_readable (exists_userRecord hr)
    rw [userShelf_stored] at hstored
    rw [hread]
    exact congrArg Except.ok hstored
  select_channel cid := by
    obtain ⟨found, fresh, hfound, hfresh, hsame⟩ := channelShelf_lawful.selectsAlike hf hr
      hf.clearCaches hr.clearCaches (channel_shown_clearCaches (hchannels cid))
    obtain rfl : found = fresh := by simpa only [channelShelf, Option.map_id, id_eq] using hsame
    exact ⟨found, hfound, hfresh⟩
  selectMany_channels cids := by
    obtain ⟨found, fresh, hfound, hfresh, hperm⟩ := channelShelf_lawful.selectsManyAlike hf hr
      hf.clearCaches hr.clearCaches fun cid _ => channel_shown_clearCaches (hchannels cid)
    simp only [channelShelf, List.map_id] at hperm
    exact ⟨found, fresh, hfound, hfresh, hperm⟩
  select_user {id} hid := by
    obtain ⟨found, fresh, hfound, hfresh, hsame⟩ := userShelf_lawful.selectsAlike hf hr
      hf.clearCaches hr.clearCaches (user_shown_clearCaches (husers id hid))
    obtain rfl : found = fresh := by simpa only [userShelf, Option.map_id, id_eq] using hsame
    exact ⟨found, hfound, hfresh⟩
  selectMany_users {ids} hids := by
    obtain ⟨found, fresh, hfound, hfresh, hperm⟩ := userShelf_lawful.selectsManyAlike hf hr
      hf.clearCaches hr.clearCaches fun id hid => user_shown_clearCaches
        (husers id fun he => hids (he ▸ hid))
    simp only [userShelf, List.map_id] at hperm
    exact ⟨found, fresh, hfound, hfresh, hperm⟩

/-- **No read of channels or users tells whether it was answered from a cache**: after any run of
the application in which no write fails and whatever is written can be read back, over caches of any
capacities and a database whose rows can be read. Batches may repeat keys, and a batch of a sync
pass is written back as any other. -/
theorem hasTransparentCaches {db : Database} (hdb : db.HoldsReadable) (currentUser : Option User)
    (userCapacity channelCapacity messageCapacity : Nat) {calls : List OperationCall}
    (hreadable : ∀ call ∈ calls, call.operation.IsReadable)
    (hwritten : ∀ call ∈ calls, ∀ c, c.isPut = true → call.faults c = none) :
    ((Replica.new db currentUser userCapacity channelCapacity messageCapacity).after
      calls).recovered.HasTransparentCaches := by
  have hnew := IsLegible.new hdb currentUser userCapacity channelCapacity messageCapacity
  refine (hnew.after hreadable).recovered.transparent_of_faithful (isFaultless_recovered _)
    (fun cid => ?_) fun id hid => ?_
  · have hcommits : ∀ call ∈ calls, channelShelf.Commits cid call :=
      fun call hcall cids _ => hwritten call hcall (.putChannels cids) rfl
    exact (channelShelf_lawful.spares_withFaults _ _).faithful
      (channelShelf_lawful.faithful_after hnew hreadable hcommits rfl
        (channelShelf_lawful.faithful_new _ _ _ _ _ cid))
  · have hcommits : ∀ call ∈ calls, userShelf.Commits id call :=
      fun call hcall ids _ => hwritten call hcall (.putUsers ids) rfl
    have hbypassed : userShelf.isBypassed id = false := beq_eq_false_iff_ne.2 hid
    exact (userShelf_lawful.spares_withFaults _ _).faithful
      (userShelf_lawful.faithful_after hnew hreadable hcommits hbypassed
        (userShelf_lawful.faithful_new _ _ _ _ _ id))

/-- Caches of one entry each, after batches that repeat a key and are larger than the caches. -/
def smallCaches : Replica :=
  ((Replica.new (.create none) none 1 1 1).after
    [⟨.insertUsers [.new "alice", .new "bob", { User.new "alice" with banned := true }],
      fun _ => none⟩,
    ⟨.insertMe (.new "alice"), fun _ => none⟩,
    ⟨.insertChannels [.new "team" "a", .new "team" "b",
      { Channel.new "team" "a" with frozen := true }], fun _ => none⟩,
    ⟨.updateLastMessage "team:a"
      { (default : Message) with id := "m1", createdAt := some Database.leapSecond },
      fun _ => none⟩]).recovered

/-- The channel that is left in the cache is the stored one, with its new last message. -/
theorem hasTransparentCaches_smallCaches : smallCaches.HasTransparentCaches ∧
    (smallCaches.channels.peek? "team:a").map Channel.lastMessageId = some (some "m1") ∧
    (smallCaches.channels.peek? "team:b").isNone = true := by
  refine ⟨hasTransparentCaches (Database.holdsReadable_create none) none 1 1 1 ?_ ?_, rfl, rfl⟩
  · have husers : ∀ u ∈ [User.new "alice", .new "bob", { User.new "alice" with banned := true }],
        u.IsReadable := by
      simp only [List.forall_mem_cons, List.not_mem_nil, false_imp_iff, implies_true, and_true]
      exact ⟨User.isReadable_new "alice", User.isReadable_new "bob", User.isReadable_new "alice"⟩
    have hchannels : ∀ c ∈ [Channel.new "team" "a", .new "team" "b",
        { Channel.new "team" "a" with frozen := true }], c.IsReadable := by
      simp only [List.forall_mem_cons, List.not_mem_nil, false_imp_iff, implies_true, and_true]
      exact ⟨Channel.isReadable_new "team" "a", Channel.isReadable_new "team" "b",
        Channel.isReadable_new "team" "a"⟩
    have htime : ∀ t ∈ some Database.leapSecond, t.HasShortYear := by decide
    simp only [List.forall_mem_cons, List.not_mem_nil, false_imp_iff, implies_true, and_true]
    exact ⟨husers, User.isReadable_new "alice", hchannels, htime⟩
  · simp only [List.forall_mem_cons, List.not_mem_nil, false_imp_iff, implies_true, and_true]

end OfflineChat.Replica
