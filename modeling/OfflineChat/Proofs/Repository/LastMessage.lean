import OfflineChat.Proofs.Repository.FailedInsert
import OfflineChat.Proofs.Repository.LatestMessage
import OfflineChat.Proofs.Store.History
import OfflineChat.Proofs.Store.Rewriting

/-! # The last message of a channel

A replica keeps the newest of the messages that are announced to a channel, whichever way and in
whichever order they are. Main definitions: `Announcement`, the two ways of announcing a message to a
replica; `Replica.Stores`, the channel is what its row is for; and `Replica.KeepsLastMessage`, what
announcements have made of a replica. Main statements: one announcement does to the channel that is
shown what the message makes of it (`Announcement.renews_apply`), so that its last message follows the
maximum (`Replica.last_message_follows_maximum`); and every channel that is found after a run in which
no write of it fails is stored (`Replica.stores_after`). -/

set_option autoImplicit false

namespace OfflineChat

open OfflineChat.Action

/-! ## Channels that are shown and stored -/

/-- The row of the channel is one that it was read from or that was written for it. -/
def Replica.Stores (r : Replica) (cid : String) (c : Channel) : Prop :=
  ∃ row, r.database.channels.get? cid = some row ∧ (row.channel = .ok c ∨ row = c.toRow)

/-- One channel has become another: this is what a look-up gives now, and what is stored if the
former one was. -/
structure Replica.Renews (cid : String) (r : Replica) (c : Channel) (r' : Replica) (c' : Channel) :
    Prop where
  faultless : r'.IsFaultless
  shown : (Channels.select cid r').1 = .ok (some c')
  stores : r.Stores cid c → r'.Stores cid c'

/-- What a look-up gives does not change with what is not looked at. -/
theorem Channels.fst_select_congr {r r' : Replica} (hs : channelShelf.Spares r r')
    (hf : r'.faults = r.faults) (cid : String) :
    (Channels.select cid r').1 = (Channels.select cid r).1 := by
  have hread : r'.database.channel? cid = r.database.channel? cid :=
    congrArg (Database.readOne Row.channel · cid) hs.rows_eq
  have hcached : r'.channels.peek? cid = r.channels.peek? cid := congrFun hs.cache_eq cid
  rw [Channels.fst_select, Channels.fst_select, hread, hcached, hf]

namespace Replica

variable {r r' r'' : Replica} {cid : String} {c c' c'' : Channel}

theorem Renews.trans (h : Renews cid r c r' c') (h' : Renews cid r' c' r'' c'') :
    Renews cid r c r'' c'' :=
  ⟨h'.faultless, h'.shown, fun hr => h'.stores (h.stores hr)⟩

/-- What leaves channels alone changes none. -/
theorem Renews.of_spares (hf : r.IsFaultless) (h : (Channels.select cid r).1 = .ok (some c))
    (hs : channelShelf.Spares r r') (hf' : r'.faults = r.faults) : Renews cid r c r' c where
  faultless call := hf' ▸ hf call
  shown := (Channels.fst_select_congr hs hf' cid).trans h
  stores hr := by
    have hrows : r'.database.channels = r.database.channels := hs.rows_eq
    unfold Stores
    rw [hrows]
    exact hr

/-- A channel that is inserted is shown and stored. -/
theorem renews_insertChannel (hf : r.IsFaultless) (hc' : c'.cid = cid) :
    ∃ r', Channels.insertChannel c' r = (.ok (), r') ∧ Renews cid r c r' c' := by
  subst hc'
  let filed : Replica := { r with channels := r.channels.put c' }
  have hwrite : Replica.write (.putChannels [c'.cid]) (fun db => db.putChannels [c']) filed
      = (.ok (), { filed.noted (.putChannels [c'.cid]) with
          database := r.database.putChannels [c'] }) := write_of_unfaulted (hf _)
  refine ⟨_, hwrite, hf, ?_, fun _ => ⟨c'.toRow, ?_, .inr rfl⟩⟩
  · exact Channels.select_cached (Cache.peek?_put_self r.channels.toCache (key c') c')
  · exact Table.get?_put_self r.database.channels c'.toRow

end Replica

/-! ### Runs in which the channel is written whenever it is cached -/

/-- The snapshot of a key, if it has one, is what its row was written for. -/
def Shelf.Mirrors {α : Type} [Keyed α] (S : Shelf α) (r : Replica) (k : String) : Prop :=
  ∀ a, (S.cache r).peek? k = some a → (S.rows r).get? k = some (S.toRow a)

/-- An effect that goes through to the table keeps it the mirror of the cache. -/
theorem Shelf.Follows.mirrors {α : Type} [Keyed α] {S : Shelf α} {r r' : Replica} {k : String}
    {effect : KeyEffect α} (h : S.Follows k r r' effect) (hthrough : effect.IsThrough)
    (hmirrors : S.Mirrors r k) : S.Mirrors r' k := by
  cases effect with
  | keeps =>
      intro a ha
      rw [h.2]
      exact hmirrors a (h.1 a ha)
  | writes a =>
      intro b hb
      rw [h.1 b hb]
      exact h.2
  | files a => exact absurd hthrough id
  | bypasses a => exact absurd hthrough id
  | removes =>
      intro a ha
      rw [h.1] at ha
      exact absurd ha (Option.not_mem_none a)

namespace Replica

variable {r : Replica} {cid : String} {c : Channel} {calls : List OperationCall}

theorem mirrors_after (hcommits : ∀ call ∈ calls, channelShelf.Commits cid call)
    (h : channelShelf.Mirrors r cid) : channelShelf.Mirrors (r.after calls) cid := by
  induction calls generalizing r with
  | nil => exact h
  | cons call calls ih =>
      obtain ⟨hcall, hrest⟩ := List.forall_mem_cons.1 hcommits
      have hthrough := channelShelf_lawful.isThrough_effect call.operation
        (r := r.withFaults call.faults) hcall rfl
      exact ih hrest ((channelShelf_lawful.follows_call call r cid).mirrors hthrough h)

/-- **Every channel that is found is stored**, after a run in which no write of it fails. -/
theorem stores_after (db : Database) (currentUser : Option User)
    (userCapacity channelCapacity messageCapacity : Nat)
    (hcommits : ∀ call ∈ calls, channelShelf.Commits cid call)
    (h : (Channels.select cid ((Replica.new db currentUser userCapacity channelCapacity
      messageCapacity).after calls).recovered).1 = .ok (some c)) :
    ((Replica.new db currentUser userCapacity channelCapacity messageCapacity).after
      calls).recovered.Stores cid c := by
  have hnew : channelShelf.Mirrors (.new db currentUser userCapacity channelCapacity
      messageCapacity) cid := fun c hc => absurd hc (Option.not_mem_none c)
  rcases Channels.exists_of_select (Prod.ext h rfl) with hcached | ⟨row, hrow, hread⟩
  · exact ⟨c.toRow, mirrors_after hcommits hnew c hcached, .inr rfl⟩
  · exact ⟨row, hrow, .inl hread⟩

end Replica

/-! ## Announcements -/

/-- A message that is announced to a channel, or that belongs to it and is about to be sent. -/
inductive Announcement (cid : String) where
  | direct (message : Message)
  | sending (message : Message) (h : message.cid = cid)

namespace Announcement

variable {cid : String}

/-- The message that is announced. -/
def message : Announcement cid → Message
  | direct m => m
  | sending m _ => m

/-- The call that announces it. -/
def operation : Announcement cid → Operation
  | direct m => .updateLastMessage cid m
  | sending m _ => .sendRequest m

end Announcement

/-- The replica after one announcement after another. -/
def Replica.announced {cid : String} (r : Replica) (as : List (Announcement cid)) : Replica :=
  as.foldl (fun r a => a.operation.apply r) r

section Announcing

variable {r : Replica} {cid : String} {c : Channel}

/-- **A new last message does to the channel that is shown what the message makes of it**, and tells
whether it became the last one. -/
theorem Channels.updateLastMessage_of_shown (hf : r.IsFaultless)
    (h : (Channels.select cid r).1 = .ok (some c)) (m : Message) :
    ∃ b r', Channels.updateLastMessage cid m r = (.ok b, r') ∧ (b = true ↔ c.Accepts m) ∧
      Replica.Renews cid r c r' (c.afterMessage m) := by
  have hread := Channels.reads_select cid r
  have hselect : Channels.select cid r = (.ok (some c), (Channels.select cid r).2) := Prod.ext h rfl
  generalize (Channels.select cid r).2 = seen at hread hselect
  have hseen : Replica.Renews cid r c seen c :=
    .of_spares hf h (channelShelf_spares hread) hread.faults_eq
  unfold Channels.updateLastMessage
  rw [bind_apply_ok hselect]
  by_cases haccepts : c.Accepts m
  · obtain ⟨time, ht, hle⟩ := haccepts
    rw [Option.mem_def] at ht
    have hcid : c.cid = cid := Channels.cid_of_select hselect
    have hrenewed : (c.withLastMessage m.id time).cid = cid := hcid
    obtain ⟨r', hinsert, hrenews⟩ :=
      Replica.renews_insertChannel (c := c) hseen.faultless hrenewed
    rw [Channel.afterMessage_of_accepts ht hle]
    refine ⟨true, r', ?_, iff_of_true rfl ⟨time, ht, hle⟩, hseen.trans hrenews⟩
    rw [ht]
    dsimp only
    rw [if_pos (Channel.isOvertakenAt_iff.2 hle)]
    exact bind_apply_ok hinsert
  · rw [Channel.afterMessage_of_not_accepts haccepts]
    refine ⟨false, seen, ?_, iff_of_false Bool.false_ne_true haccepts, hseen⟩
    cases ht : m.effectiveCreatedAt with
    | none => rfl
    | some time =>
        have hold : ¬c.isOvertakenAt time = true := fun hnew =>
          haccepts ⟨time, ht, Channel.isOvertakenAt_iff.1 hnew⟩
        dsimp only
        rw [if_neg hold]
        rfl

/-- A channel that is not found gets no last message. -/
theorem Channels.updateLastMessage_of_unknown (h : (Channels.select cid r).1 = .ok none)
    (m : Message) :
    ∃ r', Channels.updateLastMessage cid m r = (.ok false, r') ∧ r.OnlyRead r' := by
  have hselect : Channels.select cid r = (.ok none, (Channels.select cid r).2) := Prod.ext h rfl
  refine ⟨(Channels.select cid r).2, ?_, Channels.reads_select cid r⟩
  unfold Channels.updateLastMessage
  rw [bind_apply_ok hselect]
  rfl

/-- Before it is announced, a message that is about to be sent is written, which leaves channels
alone. -/
theorem AttachmentSend.snd_onRequest_of_faultless (hf : r.IsFaultless) (m : Message) :
    ∃ written : Replica, (AttachmentSend.onRequest m r).2
        = (Channels.updateLastMessage m.cid m written).2 ∧
      channelShelf.Spares r written ∧ written.faults = r.faults := by
  refine ⟨(Messages.insert [m] true r).2, ?_, (Messages.insert_spares [m] true r).2, ?_⟩
  · rw [AttachmentSend.snd_onRequest, hf]
    rfl
  · rw [Messages.snd_insert]

namespace Announcement

/-- What one announcement does to the channel that is shown. -/
theorem renews_apply (hf : r.IsFaultless) (h : (Channels.select cid r).1 = .ok (some c))
    (a : Announcement cid) :
    Replica.Renews cid r c (a.operation.apply r) (c.afterMessage a.message) := by
  cases a with
  | direct m =>
      obtain ⟨b, r', hupdate, -, hrenews⟩ := Channels.updateLastMessage_of_shown hf h m
      simp only [operation, message, Operation.apply]
      rw [hupdate]
      exact hrenews
  | sending m hcid =>
      simp only [operation, message, Operation.apply]
      subst hcid
      obtain ⟨written, hsent, hspares, hfaults⟩ := AttachmentSend.snd_onRequest_of_faultless hf m
      have hwritten := Replica.Renews.of_spares hf h hspares hfaults
      obtain ⟨b, r', hupdate, -, hrenews⟩ :=
        Channels.updateLastMessage_of_shown hwritten.faultless hwritten.shown m
      rw [hsent, hupdate]
      exact hwritten.trans hrenews

/-- An announcement to one channel keeps all others. -/
theorem keeps_apply {k : String} (hk : k ≠ cid) (r : Replica) (a : Announcement cid) :
    channelShelf.Follows k r (a.operation.apply r) .keeps := by
  have hfollows := channelShelf_follows a.operation r k
  cases a with
  | direct m =>
      rwa [operation, Operation.channelEffect, Operation.lastMessageEffect_of_ne hk] at hfollows
  | sending m hcid =>
      rwa [operation, Operation.channelEffect,
        Operation.lastMessageEffect_of_ne (hcid ▸ hk), ite_self] at hfollows

/-- An announcement to a channel that is not found leaves channels alone. -/
theorem spares_apply (hf : r.IsFaultless) (h : (Channels.select cid r).1 = .ok none)
    (a : Announcement cid) :
    channelShelf.Spares r (a.operation.apply r) ∧ (a.operation.apply r).faults = r.faults := by
  cases a with
  | direct m =>
      obtain ⟨r', hupdate, hread⟩ := Channels.updateLastMessage_of_unknown h m
      simp only [operation, Operation.apply]
      rw [hupdate]
      exact ⟨channelShelf_spares hread, hread.faults_eq⟩
  | sending m hcid =>
      simp only [operation, Operation.apply]
      subst hcid
      obtain ⟨written, hsent, hspares, hfaults⟩ := AttachmentSend.snd_onRequest_of_faultless hf m
      have hunknown : (Channels.select m.cid written).1 = .ok none :=
        (Channels.fst_select_congr hspares hfaults m.cid).trans h
      obtain ⟨r', hupdate, hread⟩ := Channels.updateLastMessage_of_unknown hunknown m
      rw [hsent, hupdate]
      exact ⟨hspares.trans (channelShelf_spares hread), hread.faults_eq.trans hfaults⟩

end Announcement

namespace Replica

/-- **What announcements do to the channel that is shown**, one after another. -/
theorem renews_announced (hf : r.IsFaultless) (h : (Channels.select cid r).1 = .ok (some c))
    (as : List (Announcement cid)) :
    Renews cid r c (r.announced as)
      ((as.map Announcement.message).foldl Channel.afterMessage c) := by
  induction as generalizing r c with
  | nil => exact ⟨hf, h, id⟩
  | cons a as ih =>
      have hstep := a.renews_apply hf h
      exact hstep.trans (ih hstep.faultless hstep.shown)

/-- Announcements to one channel keep all others. -/
theorem keeps_announced {k : String} (hk : k ≠ cid) (r : Replica) (as : List (Announcement cid)) :
    channelShelf.Follows k r (r.announced as) .keeps := by
  induction as generalizing r with
  | nil => exact ⟨fun _ hb => hb, rfl⟩
  | cons a as ih => exact (a.keeps_apply hk r).keeps_trans (ih (a.operation.apply r))

/-- Announcements to a channel that is not found leave channels alone. -/
theorem spares_announced (hf : r.IsFaultless) (h : (Channels.select cid r).1 = .ok none)
    (as : List (Announcement cid)) :
    channelShelf.Spares r (r.announced as) ∧ (r.announced as).faults = r.faults := by
  induction as generalizing r with
  | nil => exact ⟨⟨rfl, rfl⟩, rfl⟩
  | cons a as ih =>
      obtain ⟨hspares, hfaults⟩ := a.spares_apply hf h
      obtain ⟨hspares', hfaults'⟩ := ih (fun call => hfaults ▸ hf call)
        ((Channels.fst_select_congr hspares hfaults cid).trans h)
      exact ⟨hspares.trans hspares', hfaults'.trans hfaults⟩

end Replica

end Announcing

/-! ## What the row holds -/

/-- A channel is read back from its row but for its further data, which are what their text is read
as. -/
theorem Row.channel_toRow_of_shortYears {c : Channel}
    (h : ∀ column ∈ c.textColumns, column.2.HasShortYear) :
    c.toRow.channel = (Column.extraData 14 (some (Column.ofExtraData c.extraData))).map
      fun x => { c with extraData := x } := by
  have hinstant : ∀ {index : Nat} {t : Option Instant}, (index, .timestamp t) ∈ c.textColumns →
      c.toRow.cell index = .ofText? (Column.ofInstant? t) → ∀ column,
        c.toRow.instant? index column = .ok t := by
    intro index t hmem hcell column
    rw [instant?_of_cell hcell]
    refine readBack_of_readable (fun short hshort => ?_) t
    exact List.mem_singleton.1 hshort ▸ h _ hmem
  have hextra : c.toRow.extraData 14 "extra_data"
      = Column.extraData 14 (some (Column.ofExtraData c.extraData)) :=
    bind_ok (text?_of_cell (s := some _) rfl "extra_data") rfl
  unfold channel
  refine bind_ok (text_of_cell rfl "cid") ?_
  refine bind_ok (text_of_cell rfl "type") ?_
  refine bind_ok (text_of_cell rfl "channel_id") ?_
  refine bind_ok (int32_of_cell rfl "cooldown") ?_
  refine bind_ok (bool_of_cell rfl "frozen") ?_
  refine bind_ok (bool?_of_cell rfl "hidden") ?_
  refine bind_ok (text_of_cell rfl "created_by_user_id") ?_
  refine bind_ok (int32_of_cell rfl "member_count") ?_
  refine bind_ok (text?_of_cell rfl "last_message_id") ?_
  refine bind_ok (hinstant (t := c.lastMessageAt) (by simp [Channel.textColumns]) rfl _) ?_
  refine bind_ok (hinstant (t := c.createdAt) (by simp [Channel.textColumns]) rfl _) ?_
  refine bind_ok (hinstant (t := c.updatedAt) (by simp [Channel.textColumns]) rfl _) ?_
  refine bind_ok (hinstant (t := c.deletedAt) (by simp [Channel.textColumns]) rfl _) ?_
  refine bind_ok (text_of_cell rfl "team") ?_
  rw [hextra]
  cases Column.extraData 14 (some (Column.ofExtraData c.extraData)) with
  | error e => rfl
  | ok x => exact bind_ok rfl (bind_ok (status_of_cell rfl "sync_status") rfl)

theorem Channel.FollowsMaximum.extraData_eq {c c' : Channel} {messages : List Message}
    (h : c.FollowsMaximum messages c') : c'.extraData = c.extraData := by
  rw [h.others]

/-- If no year is longer than four digits, that of the new last message is not. -/
theorem Channel.FollowsMaximum.shortYears {c c' : Channel} {messages : List Message}
    (h : c.FollowsMaximum messages c') (hc : ∀ column ∈ c.textColumns, column.2.HasShortYear)
    (hmessages : ∀ m ∈ messages, ∀ t ∈ m.effectiveCreatedAt, t.HasShortYear) :
    ∀ column ∈ c'.textColumns, column.2.HasShortYear := by
  intro column hcolumn
  rw [h.others] at hcolumn
  rcases List.mem_cons.1 hcolumn with rfl | hrest
  · intro t ht
    rcases List.mem_append.1 (h.lastMessageAt.mem t ht) with hold | hnew
    · exact hc (9, .timestamp c.lastMessageAt) List.mem_cons_self t (Option.mem_toList.1 hold)
    · obtain ⟨m, hm, hmt⟩ := List.mem_filterMap.1 hnew
      exact hmessages m hm t hmt
  · exact hc column (List.mem_cons_of_mem _ hrest)

/-- The text of further data that are read back is read as the same data. -/
theorem Channel.IsReadable.extraData_eq {c : Channel} (h : c.IsReadable) :
    Column.extraData 14 (some (Column.ofExtraData c.extraData)) = .ok c.extraData := by
  have hread := Column.document_ofJson (readsBack_extraData c.extraData) (Nat.succ_pos _) h.1
    ExtraData.empty 14
  refine hread.trans (readBack_of_readable (fun column hcolumn => ?_) _)
  rw [List.mem_singleton.1 hcolumn]
  exact h.2 (14, .document c.extraData.toJson) (by simp [textColumns])

/-! ## What announcements make of a replica -/

/-- What has become of a replica that showed a channel, and of the channel, after messages were
announced to it one after another. -/
structure Replica.KeepsLastMessage {cid : String} (r : Replica) (c : Channel)
    (as : List (Announcement cid)) (c' : Channel) : Prop where
  followsMaximum : c.FollowsMaximum (as.map Announcement.message) c'
  shown : (Channels.select cid (r.announced as)).1 = .ok (some c')
  /-- The stored channel stays the one that is shown, if no year is longer than four digits and
  there are no floating-point numbers. -/
  stored : r.database.channel? cid = .ok (some c) → c.extraData.toJson.Integral →
    (∀ column ∈ c.textColumns, column.2.HasShortYear) →
    (∀ a ∈ as, ∀ t ∈ a.message.effectiveCreatedAt, t.HasShortYear) →
      (r.announced as).database.channel? cid = .ok (some c')
  /-- With such numbers, if it was written again, its further data are what their text is read
  as. -/
  reread : r.Stores cid c → (∀ column ∈ c.textColumns, column.2.HasShortYear) →
    (∀ a ∈ as, ∀ t ∈ a.message.effectiveCreatedAt, t.HasShortYear) →
      (r.announced as).database.channel? cid = .ok (some c') ∨
      (r.announced as).database.channel? cid
        = (Column.extraData 14 (some (Column.ofExtraData c.extraData))).map
          fun x => some { c' with extraData := x }
  /-- The next message is told to have become the last one if it has a time and the channel has no
  later one. -/
  answers : ∀ m, ∃ b, (Channels.updateLastMessage cid m (r.announced as)).1 = .ok b ∧
    (b = true ↔ ∃ t ∈ m.effectiveCreatedAt, ∀ s ∈ c'.lastMessageAt, s ≤ t)
  others : ∀ k, k ≠ cid →
    (r.announced as).database.channels.get? k = r.database.channels.get? k ∧
      ∀ d, (r.announced as).channels.peek? k = some d → r.channels.peek? k = some d
  anyOrder : ∀ bs : List (Announcement cid),
    (bs.map Announcement.message).Perm (as.map Announcement.message) →
      ∃ d, (Channels.select cid (r.announced bs)).1 = .ok (some d) ∧
        d.lastMessageAt = c'.lastMessageAt

namespace Replica

variable {r : Replica} {cid : String} {c c' : Channel}

/-- A stored channel is read as it is, or as it is read back from the row that was written. -/
theorem Stores.channel?_eq (h : r.Stores cid c)
    (hc : ∀ column ∈ c.textColumns, column.2.HasShortYear) :
    r.database.channel? cid = .ok (some c) ∨
      r.database.channel? cid = (Column.extraData 14 (some (Column.ofExtraData c.extraData))).map
        fun x => some { c with extraData := x } := by
  obtain ⟨row, hrow, hread⟩ := h
  have hchannel : r.database.channel? cid = row.channel.map some := by
    rw [Database.channel?, Database.readOne, hrow]
  rw [hchannel]
  rcases hread with hread | rfl
  · rw [hread]
    exact .inl rfl
  · rw [Row.channel_toRow_of_shortYears hc]
    refine .inr ?_
    cases Column.extraData 14 (some (Column.ofExtraData c.extraData)) <;> rfl

/-- **The last message of a channel follows the maximum.** In every state, if no call fails from then
on, and for messages that are announced one after another in any of the two ways. What is shown is
also stored if no write has failed before (`stores_after`). A channel that is not found gets no
row. -/
theorem last_message_follows_maximum (hf : r.IsFaultless) (as : List (Announcement cid)) :
    (∀ c, (Channels.select cid r).1 = .ok (some c) → ∃ c', r.KeepsLastMessage c as c') ∧
    ((Channels.select cid r).1 = .ok none →
      (r.announced as).database.channels = r.database.channels ∧
      (Channels.select cid (r.announced as)).1 = .ok none ∧
      ∀ m, (Channels.updateLastMessage cid m (r.announced as)).1 = .ok false) := by
  refine ⟨fun c h => ?_, fun h => ?_⟩
  · have hrenews := renews_announced hf h as
    have hmaximum := c.followsMaximum_foldl (as.map Announcement.message)
    generalize (as.map Announcement.message).foldl Channel.afterMessage c = c' at hrenews hmaximum
    have hreread (hr : r.Stores cid c) (hc : ∀ column ∈ c.textColumns, column.2.HasShortYear)
        (has : ∀ a ∈ as, ∀ t ∈ a.message.effectiveCreatedAt, t.HasShortYear) :
        (r.announced as).database.channel? cid = .ok (some c') ∨
        (r.announced as).database.channel? cid
          = (Column.extraData 14 (some (Column.ofExtraData c.extraData))).map
            fun x => some { c' with extraData := x } := by
      rw [← hmaximum.extraData_eq]
      exact (hrenews.stores hr).channel?_eq (hmaximum.shortYears hc (List.forall_mem_map.2 has))
    refine ⟨c', hmaximum, hrenews.shown, fun hstored hintegral hc has => ?_, hreread, fun m => ?_,
      fun k hk => (keeps_announced hk r as).symm, fun bs hperm => ?_⟩
    · obtain ⟨row, hrow, hread⟩ := Database.exists_row_of_readOne hstored
      have hreadable := Row.isReadable_of_channel hread hintegral hc
      rcases hreread ⟨row, hrow, .inl hread⟩ hc has with hsame | hagain
      · exact hsame
      · rw [hagain, hreadable.extraData_eq, ← hmaximum.extraData_eq]
        rfl
    · obtain ⟨b, r', hupdate, haccepts, -⟩ :=
        Channels.updateLastMessage_of_shown hrenews.faultless hrenews.shown m
      exact ⟨b, congrArg Prod.fst hupdate, haccepts⟩
    · exact ⟨_, (renews_announced hf h bs).shown,
        hmaximum.lastMessageAt_eq (c.followsMaximum_foldl _) hperm⟩
  · obtain ⟨hspares, hfaults⟩ := spares_announced hf h as
    have hunknown := (Channels.fst_select_congr hspares hfaults cid).trans h
    refine ⟨hspares.rows_eq, hunknown, fun m => ?_⟩
    obtain ⟨r', hupdate, -⟩ := Channels.updateLastMessage_of_unknown hunknown m
    exact congrArg Prod.fst hupdate

/-- A replica that has just stored a channel nothing is known of. -/
def holdingTeam : Replica :=
  ((Replica.new (.create none) none 1 1 1).after
    [⟨.insertChannels [Channel.new "team" "a"], fun _ => none⟩]).recovered

/-- Three messages around a leap second, announced from the newest to the one without a time. -/
def newestFirst : List (Announcement "team:a") :=
  [.sending (Database.messageAt "m3" (some Database.afterLeapSecond) none) rfl,
    .direct (Database.messageAt "m2" none (some Database.leapSecond)),
    .direct (Database.messageAt "m1" none none)]

/-- The newest of the messages stays the last one. -/
theorem last_message_newestFirst :
    ∃ c, (Channels.select "team:a" (holdingTeam.announced newestFirst)).1 = .ok (some c) ∧
      c.lastMessageId = some "m3" ∧ c.lastMessageAt = some Database.afterLeapSecond := by
  obtain ⟨hshown, -⟩ := last_message_follows_maximum (r := holdingTeam) (fun _ => rfl) newestFirst
  obtain ⟨c, hc⟩ := hshown (Channel.new "team" "a") rfl
  have hlatest : IsLatest [Database.afterLeapSecond, Database.leapSecond]
      (some Database.afterLeapSecond) := by
    refine ⟨fun s hs => Option.some.inj hs ▸ List.mem_cons_self, fun s hs => ⟨_, rfl, ?_⟩⟩
    rcases List.mem_pair.1 hs with rfl | rfl <;> decide
  have htime : c.lastMessageAt = some Database.afterLeapSecond :=
    hc.followsMaximum.lastMessageAt.unique hlatest fun _ => Iff.rfl
  refine ⟨c, hc.shown, ?_, htime⟩
  rw [hc.followsMaximum.lastMessageId, htime]
  decide

/-- Further data with a number that is what the text `5e57` is read as, and that is written with 17
digits. -/
def hugeNumber : ExtraData :=
  ⟨[("x", .number (.float 0x4BE9_7D4D_F19D_6058))], by
    simp only [Json.Canonical, Json.CanonicalFields, Json.AscendingKeys, List.map_cons, List.map_nil,
      List.pairwise_singleton, and_true, true_and]
    decide⟩

/-- A replica that has stored a channel with such data and then emptied its caches. -/
def holdingHuge : Replica :=
  ((Replica.new (.create none) none 1 1 1).after
    [⟨.insertChannels [{ Channel.new "team" "a" with extraData := hugeNumber }], fun _ => none⟩,
      ⟨.clearCaches, fun _ => none⟩]).recovered

/-- The replica after a message with a time was announced to the channel. -/
def renewedHuge : Except StoreError Bool × Replica :=
  Channels.updateLastMessage "team:a"
    (Database.messageAt "m1" (some Database.afterLeapSecond) none) holdingHuge

/-- A new last message can change the further data that are stored: they are read, written and read
again, and each time a number can become the next one. -/
theorem extraData_changed_hugeNumber :
    ∃ old new, holdingHuge.database.channel? "team:a" = .ok (some old) ∧
      renewedHuge.1 = .ok true ∧
      renewedHuge.2.database.channel? "team:a" = .ok (some new) ∧
      new.extraData ≠ old.extraData := by
  have hold : (holdingHuge.database.channel? "team:a").toOption.join.map
      (fun c => Column.ofExtraData c.extraData) = some "\x7b\"x\":5e+57\x7d" := by decide +kernel
  have hnew : (renewedHuge.2.database.channel? "team:a").toOption.join.map
      (fun c => Column.ofExtraData c.extraData)
        = some "\x7b\"x\":5.0000000000000004e+57\x7d" := by decide +kernel
  have hanswer : renewedHuge.1.toOption = some true := by decide +kernel
  obtain ⟨old, holdread, holdtext⟩ := Option.map_eq_some_iff.1 hold
  obtain ⟨new, hnewread, hnewtext⟩ := Option.map_eq_some_iff.1 hnew
  refine ⟨old, new, toOption_eq_some_iff.1 (Option.join_eq_some_iff.1 holdread),
    toOption_eq_some_iff.1 hanswer,
    toOption_eq_some_iff.1 (Option.join_eq_some_iff.1 hnewread), fun hsame => ?_⟩
  rw [hsame, holdtext] at hnewtext
  exact absurd hnewtext (by decide)

end Replica

end OfflineChat
