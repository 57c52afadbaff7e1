import OfflineChat.Proofs.Repository.Effects

/-! # Lawful shelves

What reads of a repository show and what operations do to it, told for all three repositories at
once. Main definition: `Shelf.Lawful`. Main statements: the three repositories are lawful
(`userShelf_lawful`, `channelShelf_lawful`, `messageShelf_lawful`); a replica that is legible stays
so (`Replica.IsLegible.after`); and a cache stays faithful to a key whose own writes succeed
(`Shelf.Lawful.faithful_after`). -/

set_option autoImplicit false

namespace OfflineChat

/-- What holds of the reads of a shelf, and of operations on it. -/
structure Shelf.Lawful {α : Type} [Keyed α] (S : Shelf α) : Prop where
  /-- A new replica has nothing cached. -/
  peek?_new : ∀ db me userCapacity channelCapacity messageCapacity k,
    (S.cache (.new db me userCapacity channelCapacity messageCapacity)).peek? k = none
  spares_withFaults : ∀ r faults, S.Spares r (r.withFaults faults)
  legible : ∀ {r : Replica}, r.IsLegible → S.Legible r
  /-- A snapshot is found as it was filed. -/
  select_cached : ∀ {r : Replica} {k : String} {a : α}, (S.cache r).peek? k = some a →
    (S.select k r).1 = .ok (some a)
  select_shown : ∀ {r : Replica}, r.IsFaultless → r.IsLegible → ∀ k,
    ∃ found, (S.select k r).1 = .ok found ∧ found.map S.part = S.shown r k
  selectMany_shown : ∀ {r : Replica}, r.IsFaultless → r.IsLegible → ∀ ks,
    ∃ found, (S.selectMany ks r).1 = .ok found ∧
      (found.map S.part).Perm ((firstOfKeys ks).filterMap (S.shown r))
  follows : ∀ op r k, S.Follows k r (op.apply r) (S.effect op r k)
  /-- Only a failed write treats cache and table of a key differently. -/
  isThrough_effect : ∀ op {r : Replica} {k : String},
    (∀ ks, k ∈ ks → r.faults (S.putCall ks) = none) → S.isBypassed k = false →
      (S.effect op r k).IsThrough
  isReadable_effect : ∀ {op : Operation} {r : Replica}, op.IsReadable → r.IsLegible →
    ∀ k, ∀ a ∈ (S.effect op r k).entity?, S.IsReadable a
  /-- An effect on a key depends on nothing but what is shown of it. -/
  effect_congr : ∀ op {r r' : Replica} {k : String}, r'.faults = r.faults →
    (∀ c, c.isRead = true → r.faults c = none) → r.IsLegible → r'.IsLegible →
      S.shown r' k = S.shown r k → S.effect op r' k = S.effect op r k
  apply_insertOperation : ∀ as r, (S.insertOperation as).apply r = (S.insert as r).2
  effect_insertOperation : ∀ as r k, S.effect (S.insertOperation as) r k
    = .ofBatch (r.faults (S.putCall (as.map key))) as k
  isReadable_insertOperation : ∀ {as : List α}, (∀ a ∈ as, S.IsReadable a) →
    (S.insertOperation as).IsReadable
  /-- A failure to insert comes from the medium, which then writes nothing. -/
  insert_error : ∀ {as : List α} {r : Replica} {e : StoreError}, (S.insert as r).1 = .error e →
    r.faults (S.putCall (as.map key)) = some e ∧ (S.insert as r).2.database = r.database

/-! ## What operations bring -/

/-- The time of a message that is read back has a year of four digits. -/
theorem Message.IsReadable.hasShortYear {m : Message} (h : m.IsReadable) {t : Instant}
    (ht : m.effectiveCreatedAt = some t) : t.HasShortYear := by
  rcases Option.or_eq_some_iff.1 ht with hserver | ⟨_, hlocal⟩
  · exact h.2 (6, .timestamp m.createdAt) (by simp [Message.textColumns]) t hserver
  · exact h.2 (7, .timestamp m.createdLocallyAt) (by simp [Message.textColumns]) t hlocal

theorem Message.IsReadable.afterFailedSend {m : Message} (h : m.IsReadable)
    (classifier : Classifier) {now : Instant} (hnow : now.HasShortYear) (error : RemoteError) :
    (m.afterFailedSend classifier now error).IsReadable := by
  refine ⟨h.1, fun column hcolumn => ?_⟩
  have hold : column = (9, .timestamp (some now)) ∨ column ∈ m.textColumns := by
    simp only [Message.textColumns, Message.afterFailedSend, List.mem_cons, List.not_mem_nil,
      or_false] at hcolumn ⊢
    tauto
  rcases hold with rfl | hold
  · intro t ht
    exact Option.some.inj ht ▸ hnow
  · exact h.2 column hold

theorem Channel.IsReadable.withLastMessage {c : Channel} (h : c.IsReadable) (id : String)
    {t : Instant} (ht : t.HasShortYear) : (c.withLastMessage id t).IsReadable := by
  refine ⟨h.1, fun column hcolumn => ?_⟩
  rcases List.mem_cons.1 hcolumn with rfl | hrest
  · intro s hs
    exact Option.some.inj hs ▸ ht
  · exact h.2 column (List.mem_cons_of_mem _ hrest)

namespace Operation

variable {cid : String} {message : Message} {r r' : Replica} {k : String}

theorem mem_renewedChannels {c : Channel} (h : c ∈ renewedChannels cid message r) :
    ∃ channel time, (Channels.select cid r).1 = .ok (some channel) ∧
      message.effectiveCreatedAt = some time ∧ c = channel.withLastMessage message.id time := by
  unfold renewedChannels at h
  cases hselect : (Channels.select cid r).1 with
  | error e => simp [hselect] at h
  | ok found =>
      cases found with
      | none => simp [hselect] at h
      | some channel =>
          cases htime : message.effectiveCreatedAt with
          | none => simp [hselect, htime] at h
          | some time =>
              simp only [hselect, htime] at h
              by_cases hnewer : channel.isOvertakenAt time = true
              · rw [if_pos hnewer] at h
                exact ⟨channel, time, rfl, rfl, List.mem_singleton.1 h⟩
              · rw [if_neg hnewer] at h
                exact absurd h List.not_mem_nil

/-- A new last message is filed under the key that was asked for. -/
theorem cid_of_mem_renewedChannels {c : Channel} (h : c ∈ renewedChannels cid message r) :
    c.cid = cid := by
  obtain ⟨channel, time, hselect, _, rfl⟩ := mem_renewedChannels h
  have hfound : Channels.select cid r = (.ok (some channel), (Channels.select cid r).2) :=
    Prod.ext hselect rfl
  have hcid : channel.cid = cid := Channels.cid_of_select hfound
  exact hcid

theorem isReadable_of_mem_renewedChannels (hr : r.IsLegible)
    (ht : ∀ t ∈ message.effectiveCreatedAt, t.HasShortYear) {c : Channel}
    (h : c ∈ renewedChannels cid message r) : c.IsReadable := by
  obtain ⟨channel, time, hselect, htime, rfl⟩ := mem_renewedChannels h
  have hfound : Channels.select cid r = (.ok (some channel), (Channels.select cid r).2) :=
    Prod.ext hselect rfl
  have hchannel : channel.IsReadable := by
    rcases Channels.exists_of_select hfound with hcached | ⟨row, hrow, hread⟩
    · exact hr.channels.cache hcached
    · obtain ⟨c, hc, hreadable⟩ := hr.channels.rows hrow
      obtain rfl : c = channel := Except.ok.inj (hc.symm.trans hread)
      exact hreadable
  exact hchannel.withLastMessage message.id (ht time htime)

theorem lastMessageEffect_of_ne (h : k ≠ cid) (message : Message) (r : Replica) :
    lastMessageEffect cid message r k = .keeps := by
  refine KeyEffect.ofBatch_of_not_mem (fun hk => ?_) _
  obtain ⟨c, hc, rfl⟩ := List.mem_map.1 hk
  exact h (cid_of_mem_renewedChannels hc)

/-- A new last message does the same to channels of which the same is shown. -/
theorem lastMessageEffect_congr (cid : String) (message : Message) (hf : r'.faults = r.faults)
    (hread : ∀ c, c.isRead = true → r.faults c = none) (hr : r.IsLegible) (hr' : r'.IsLegible)
    (hshown : channelShelf.shown r' k = channelShelf.shown r k) :
    lastMessageEffect cid message r' k = lastMessageEffect cid message r k := by
  -- only the channel that is asked for can be written
  by_cases hk : k = cid
  · subst hk
    have hok : r.faults (.channel k) = none := hread _ rfl
    have hselect : (Channels.select k r').1 = (Channels.select k r).1 := by
      rw [Channels.select_shown (hf ▸ hok) hr', Channels.select_shown hok hr, hshown]
    unfold lastMessageEffect renewedChannels
    rw [hselect, hf]
  · rw [lastMessageEffect_of_ne hk, lastMessageEffect_of_ne hk]

end Operation

/-! ## The three repositories -/

/-- What all three repositories do with a batch fails only if the medium fails the write, and then
the database is as it was. -/
theorem Replica.insertBatch_error {α : Type} (entities : List α) {file : Replica → Replica}
    {c : StoreCall} {change : Database → Database} {r : Replica} {e : StoreError}
    (hfile : (file r).faults = r.faults ∧ (file r).database = r.database)
    (h : ((if entities.isEmpty then pure () else do Action.modify file; Replica.write c change :
        Action Replica Unit) r).1 = .error e) :
    r.faults c = some e ∧
      ((if entities.isEmpty then pure () else do Action.modify file; Replica.write c change :
        Action Replica Unit) r).2.database = r.database := by
  by_cases hempty : entities.isEmpty = true
  · rw [if_pos hempty] at h
    exact absurd h (by simp)
  · rw [if_neg hempty] at h ⊢
    rw [Action.bind_apply, Action.modify_apply] at h ⊢
    dsimp only at h ⊢
    rw [Replica.fst_write, hfile.1] at h
    rw [Replica.database_write, hfile.1, hfile.2]
    cases hf : r.faults c with
    | none => rw [hf] at h; exact absurd h (by simp)
    | some e' => rw [hf] at h; exact ⟨congrArg some (Except.error.inj h), rfl⟩

/-! ### Users -/

section Users

variable {op : Operation} {r : Replica} {k : String}

theorem Operation.isThrough_userEffect (hput : ∀ ids, k ∈ ids → r.faults (.putUsers ids) = none)
    (hk : k ≠ sessionUserId) (op : Operation) : (op.userEffect r k).IsThrough := by
  cases op with
  | insertUsers users => exact KeyEffect.isThrough_ofBatch (hput _)
  | insertMe user =>
      have heffect : Operation.userEffect (.insertMe user) r k = .keeps := if_neg fun h => hk h.1
      rw [heffect]
      trivial
  | clearUsers => exact KeyEffect.isThrough_ofDelete _
  | sendResult classifier now message result =>
      cases result with
      | ok sent => trivial
      | error error => exact KeyEffect.isThrough_ofBatch (hput _)
  | _ => trivial

theorem Operation.isReadable_userEffect (hop : op.IsReadable) {u : User}
    (hu : u ∈ (op.userEffect r k).entity?) : u.IsReadable := by
  cases op with
  | insertUsers users => exact hop u (KeyEffect.mem_of_entity?_ofBatch hu)
  | insertMe user =>
      simp only [userEffect] at hu
      split at hu
      · exact Option.some.inj hu ▸ hop
      · exact absurd hu KeyEffect.not_mem_entity?_keeps
  | clearUsers => exact absurd hu (KeyEffect.not_mem_entity?_ofDelete _)
  | sendResult classifier now message result =>
      cases result with
      | ok sent => exact absurd hu KeyEffect.not_mem_entity?_keeps
      | error error => exact hop.2.2 u (KeyEffect.mem_of_entity?_ofBatch hu)
  | _ => exact absurd hu KeyEffect.not_mem_entity?_keeps

theorem Operation.userEffect_congr {r' : Replica} (hf : r'.faults = r.faults) (op : Operation) :
    op.userEffect r' k = op.userEffect r k := by
  cases op with
  | sendResult classifier now message result =>
      cases result with
      | ok sent => rfl
      | error error => simp only [userEffect, hf]
  | _ => simp only [userEffect, hf]

theorem userShelf_lawful : userShelf.Lawful where
  peek?_new _ _ _ _ _ _ := rfl
  spares_withFaults _ _ := ⟨rfl, rfl⟩
  legible hr := hr.users
  select_cached h := Users.select_cached h
  select_shown hf hr id := ⟨_, Users.select_shown hf hr id, Option.map_id_apply⟩
  selectMany_shown hf hr ids := by
    obtain ⟨found, hfound, hperm⟩ := Users.selectMany_shown hf hr ids
    exact ⟨found, hfound, (List.map_id found).symm ▸ hperm⟩
  follows := userShelf_follows
  isThrough_effect op _ _ hput hk :=
    Operation.isThrough_userEffect hput (by simpa [userShelf] using hk) op
  isReadable_effect hop _ _ _ hu := Operation.isReadable_userEffect hop hu
  effect_congr op _ _ _ hf _ _ _ _ := Operation.userEffect_congr hf op
  apply_insertOperation _ _ := rfl
  effect_insertOperation _ _ _ := rfl
  isReadable_insertOperation h := h
  insert_error {users _ _} h := Replica.insertBatch_error users ⟨rfl, rfl⟩ h

end Users

/-! ### Channels -/

section Channels

variable {op : Operation} {r : Replica} {k : String}

theorem Operation.isThrough_channelEffect
    (hput : ∀ cids, k ∈ cids → r.faults (.putChannels cids) = none) (op : Operation) :
    (op.channelEffect r k).IsThrough := by
  cases op with
  | insertChannels channels => exact KeyEffect.isThrough_ofBatch (hput _)
  | updateLastMessage cid message => exact KeyEffect.isThrough_ofBatch (hput _)
  | clearChannels => exact KeyEffect.isThrough_ofDelete _
  | sendRequest message =>
      simp only [channelEffect]
      split
      · exact KeyEffect.isThrough_ofBatch (hput _)
      · trivial
  | _ => trivial

theorem Operation.isReadable_channelEffect (hop : op.IsReadable) (hr : r.IsLegible) {c : Channel}
    (hc : c ∈ (op.channelEffect r k).entity?) : c.IsReadable := by
  cases op with
  | insertChannels channels => exact hop c (KeyEffect.mem_of_entity?_ofBatch hc)
  | updateLastMessage cid message =>
      exact isReadable_of_mem_renewedChannels hr hop (KeyEffect.mem_of_entity?_ofBatch hc)
  | clearChannels => exact absurd hc (KeyEffect.not_mem_entity?_ofDelete _)
  | sendRequest message =>
      simp only [channelEffect] at hc
      split at hc
      · exact isReadable_of_mem_renewedChannels hr (fun t => hop.hasShortYear)
          (KeyEffect.mem_of_entity?_ofBatch hc)
      · exact absurd hc KeyEffect.not_mem_entity?_keeps
  | _ => exact absurd hc KeyEffect.not_mem_entity?_keeps

theorem Operation.channelEffect_congr {r' : Replica} (hf : r'.faults = r.faults)
    (hread : ∀ c, c.isRead = true → r.faults c = none) (hr : r.IsLegible) (hr' : r'.IsLegible)
    (hshown : channelShelf.shown r' k = channelShelf.shown r k) (op : Operation) :
    op.channelEffect r' k = op.channelEffect r k := by
  cases op with
  | updateLastMessage cid message =>
      exact lastMessageEffect_congr cid message hf hread hr hr' hshown
  | sendRequest message =>
      have hlast := lastMessageEffect_congr message.cid message hf hread hr hr' hshown
      simp only [channelEffect, hf, hlast]
  | _ => simp only [channelEffect, hf]

theorem channelShelf_lawful : channelShelf.Lawful where
  peek?_new _ _ _ _ _ _ := rfl
  spares_withFaults _ _ := ⟨rfl, rfl⟩
  legible hr := hr.channels
  select_cached h := Channels.select_cached h
  select_shown hf hr cid := ⟨_, Channels.select_shown (hf _) hr, Option.map_id_apply⟩
  selectMany_shown hf hr cids := by
    obtain ⟨found, hfound, hperm⟩ := Channels.selectMany_shown hf hr cids
    exact ⟨found, hfound, (List.map_id found).symm ▸ hperm⟩
  follows := channelShelf_follows
  isThrough_effect op _ _ hput _ := Operation.isThrough_channelEffect hput op
  isReadable_effect hop hr _ _ hc := Operation.isReadable_channelEffect hop hr hc
  effect_congr op _ _ _ hf hread hr hr' hshown :=
    Operation.channelEffect_congr hf hread hr hr' hshown op
  apply_insertOperation _ _ := rfl
  effect_insertOperation _ _ _ := rfl
  isReadable_insertOperation h := h
  insert_error {channels _ _} h := Replica.insertBatch_error channels ⟨rfl, rfl⟩ h

end Channels

/-! ### Messages -/

section Messages

variable {op : Operation} {r : Replica} {k : String}

/-- A message is shown in one of two ways, which agree but for its users. -/
theorem Messages.select_shown (hf : r.IsFaultless) (hr : r.IsLegible) (id : String) :
    ∃ found, (Messages.select id r).1 = .ok found ∧
      found.map Message.withUserIds = messageShelf.shown r id := by
  cases hcached : r.messages.peek? id with
  | some m =>
      have hshown : messageShelf.shown r id = some m.withUserIds := by
        simp only [Shelf.shown, messageShelf, hcached, Option.map_some, Option.some_or]
      exact ⟨some m, Messages.select_cached hcached, hshown.symm⟩
  | none =>
      have hshown : messageShelf.shown r id = messageShelf.stored r id := by
        simp only [Shelf.shown, messageShelf, hcached, Option.map_none, Option.none_or]
      refine ⟨_, Messages.select_uncached hf hr hcached, ?_⟩
      rw [hshown]
      cases hstored : messageShelf.stored r id with
      | none => rfl
      | some m =>
          have hpart : m.withUserIds = m := Shelf.part_of_stored hstored
          exact congrArg some ((r.withUserIds_completed m).trans hpart)

theorem Operation.isThrough_messageEffect
    (hput : ∀ ids, k ∈ ids → r.faults (.putMessages ids) = none) (op : Operation) :
    (op.messageEffect r k).IsThrough := by
  cases op with
  | insertMessages messages cached =>
      cases cached with
      | true => exact KeyEffect.isThrough_ofBatch (hput _)
      | false => exact KeyEffect.isThrough_ofUncached _ _ _
  | clearMessages => exact KeyEffect.isThrough_ofDelete _
  | sendRequest message => exact KeyEffect.isThrough_ofBatch (hput _)
  | sendResult classifier now message result =>
      cases result with
      | ok sent => trivial
      | error error =>
          simp only [messageEffect]
          split
          · exact KeyEffect.isThrough_ofUncached _ _ _
          · trivial
  | _ => trivial

theorem Operation.isReadable_messageEffect (hop : op.IsReadable) {m : Message}
    (hm : m ∈ (op.messageEffect r k).entity?) : m.IsReadable := by
  cases op with
  | insertMessages messages cached =>
      cases cached with
      | true => exact hop m (KeyEffect.mem_of_entity?_ofBatch hm)
      | false => exact hop m (KeyEffect.mem_of_entity?_ofUncached hm)
  | clearMessages => exact absurd hm (KeyEffect.not_mem_entity?_ofDelete _)
  | sendRequest message =>
      have hmem := KeyEffect.mem_of_entity?_ofBatch hm
      exact List.mem_singleton.1 hmem ▸ hop
  | sendResult classifier now message result =>
      cases result with
      | ok sent => exact absurd hm KeyEffect.not_mem_entity?_keeps
      | error error =>
          simp only [messageEffect] at hm
          split at hm
          · have hmem := KeyEffect.mem_of_entity?_ofUncached hm
            exact List.mem_singleton.1 hmem ▸ hop.1.afterFailedSend classifier hop.2.1 error
          · exact absurd hm KeyEffect.not_mem_entity?_keeps
  | _ => exact absurd hm KeyEffect.not_mem_entity?_keeps

theorem Operation.messageEffect_congr {r' : Replica} (hf : r'.faults = r.faults)
    (op : Operation) : op.messageEffect r' k = op.messageEffect r k := by
  cases op with
  | sendResult classifier now message result =>
      cases result with
      | ok sent => rfl
      | error error => simp only [messageEffect, hf]
  | _ => simp only [messageEffect, hf]

theorem messageShelf_lawful : messageShelf.Lawful where
  peek?_new _ _ _ _ _ _ := rfl
  spares_withFaults _ _ := ⟨rfl, rfl⟩
  legible hr := hr.messages
  select_cached h := Messages.select_cached h
  select_shown hf hr id := Messages.select_shown hf hr id
  selectMany_shown hf hr ids := Messages.selectMany_shown hf hr ids
  follows := messageShelf_follows
  isThrough_effect op _ _ hput _ := Operation.isThrough_messageEffect hput op
  isReadable_effect hop _ _ _ hm := Operation.isReadable_messageEffect hop hm
  effect_congr op _ _ _ hf _ _ _ _ := Operation.messageEffect_congr hf op
  apply_insertOperation _ _ := rfl
  effect_insertOperation _ _ _ := rfl
  isReadable_insertOperation h := h
  insert_error {messages _ _} h := Replica.insertBatch_error messages ⟨rfl, rfl⟩ h

end Messages

/-! ## Legible replicas -/

/-- All rows of the database hold entities that are read back. -/
structure Database.HoldsReadable (db : Database) : Prop where
  users : ∀ row ∈ db.users.rows, ∃ record, row.userRecord = .ok record ∧ record.user.IsReadable
  channels : ∀ row ∈ db.channels.rows, ∃ c, row.channel = .ok c ∧ c.IsReadable
  messages : ∀ row ∈ db.messages.rows, ∃ m, row.message = .ok m ∧ m.IsReadable

/-- A database without rows holds nothing that cannot be read. -/
theorem Database.holdsReadable_create (path : Option String) : (create path).HoldsReadable :=
  ⟨fun _ hrow => absurd hrow List.not_mem_nil, fun _ hrow => absurd hrow List.not_mem_nil,
    fun _ hrow => absurd hrow List.not_mem_nil⟩

namespace Replica.IsLegible

variable {r : Replica}

theorem new {db : Database} (h : db.HoldsReadable) (currentUser : Option User)
    (userCapacity channelCapacity messageCapacity : Nat) :
    (Replica.new db currentUser userCapacity channelCapacity messageCapacity).IsLegible := by
  refine ⟨⟨fun hrow => ?_, fun hcached => ?_⟩, ⟨fun hrow => ?_, fun hcached => ?_⟩,
    ⟨fun hrow => ?_, fun hcached => ?_⟩⟩
  · obtain ⟨record, hread, hreadable⟩ := h.users _ (Table.mem_of_get? hrow)
    exact ⟨record.user, congrArg (Except.map UserRecord.user) hread, hreadable⟩
  · exact absurd hcached (Option.not_mem_none _)
  · exact h.channels _ (Table.mem_of_get? hrow)
  · exact absurd hcached (Option.not_mem_none _)
  · exact h.messages _ (Table.mem_of_get? hrow)
  · exact absurd hcached (Option.not_mem_none _)

theorem withFaults (h : r.IsLegible) (faults : StoreCall → Option StoreError) :
    (r.withFaults faults).IsLegible :=
  ⟨⟨h.users.rows, h.users.cache⟩, ⟨h.channels.rows, h.channels.cache⟩,
    ⟨h.messages.rows, h.messages.cache⟩⟩

theorem recovered (h : r.IsLegible) : r.recovered.IsLegible := h.withFaults _

/-- An operation that brings only what is read back leaves a replica legible. -/
theorem apply (h : r.IsLegible) {op : Operation} (hop : op.IsReadable) :
    (op.apply r).IsLegible where
  users := Shelf.legible_of_follows h.users (userShelf_lawful.follows op r)
    (userShelf_lawful.isReadable_effect hop h)
  channels := Shelf.legible_of_follows h.channels (channelShelf_lawful.follows op r)
    (channelShelf_lawful.isReadable_effect hop h)
  messages := Shelf.legible_of_follows h.messages (messageShelf_lawful.follows op r)
    (messageShelf_lawful.isReadable_effect hop h)

theorem after (h : r.IsLegible) {calls : List OperationCall}
    (hcalls : ∀ call ∈ calls, call.operation.IsReadable) : (r.after calls).IsLegible := by
  induction calls generalizing r with
  | nil => exact h
  | cons call calls ih =>
      obtain ⟨hcall, hrest⟩ := List.forall_mem_cons.1 hcalls
      exact ih ((h.withFaults call.faults).apply hcall) hrest

end Replica.IsLegible

/-! ## Faithful caches -/

namespace Shelf

variable {α : Type} [Keyed α] (S : Shelf α)

/-- Whatever the call writes under this key is written. -/
def Commits (k : String) (call : OperationCall) : Prop :=
  ∀ ks, k ∈ ks → call.faults (S.putCall ks) = none

variable {S} {r : Replica} {k : String}

theorem Spares.stored_eq {r' : Replica} (h : S.Spares r r') : S.stored r' = S.stored r := by
  unfold stored
  rw [h.rows_eq]

theorem Spares.shown_eq {r' : Replica} (h : S.Spares r r') : S.shown r' = S.shown r := by
  unfold shown
  rw [h.stored_eq, h.cache_eq]

theorem Spares.faithful {r' : Replica} (h : S.Spares r r') (hr : S.Faithful r k) :
    S.Faithful r' k := by
  intro a ha
  rw [h.stored_eq]
  exact hr a (h.cache_eq ▸ ha)

namespace Lawful

variable (hS : S.Lawful)
include hS

theorem faithful_new (db : Database) (currentUser : Option User)
    (userCapacity channelCapacity messageCapacity : Nat) (k : String) :
    S.Faithful (.new db currentUser userCapacity channelCapacity messageCapacity) k :=
  faithful_of_uncached (hS.peek?_new _ _ _ _ _ _)

theorem follows_call (call : OperationCall) (r : Replica) (k : String) :
    S.Follows k r (call.operation.apply (r.withFaults call.faults))
      (S.effect call.operation (r.withFaults call.faults) k) :=
  (hS.spares_withFaults r call.faults).follows (hS.follows call.operation _ k)

theorem faithful_call {call : OperationCall} (hr : r.IsLegible)
    (hreadable : call.operation.IsReadable) (hcommits : S.Commits k call)
    (hk : S.isBypassed k = false) (h : S.Faithful r k) :
    S.Faithful (call.operation.apply (r.withFaults call.faults)) k :=
  (hS.follows_call call r k).faithful (hS.isThrough_effect call.operation hcommits hk)
    (hS.isReadable_effect hreadable (hr.withFaults _) k) h

/-- **A cache stays faithful to a key whose own writes succeed.** -/
theorem faithful_after {calls : List OperationCall} (hr : r.IsLegible)
    (hreadable : ∀ call ∈ calls, call.operation.IsReadable)
    (hcommits : ∀ call ∈ calls, S.Commits k call) (hk : S.isBypassed k = false)
    (h : S.Faithful r k) : S.Faithful (r.after calls) k := by
  induction calls generalizing r with
  | nil => exact h
  | cons call calls ih =>
      obtain ⟨hcall, hrest⟩ := List.forall_mem_cons.1 hreadable
      obtain ⟨hput, hputs⟩ := List.forall_mem_cons.1 hcommits
      have hlegible := (hr.withFaults call.faults).apply hcall
      exact ih hlegible hrest hputs (hS.faithful_call hr hcall hput hk h)

end Lawful

/-! ## Reads of two replicas -/

section Alike

variable (S)

/-- A read of the key gives the same of both replicas, except for what a row does not hold. -/
def SelectsAlike (k : String) (r r' : Replica) : Prop :=
  ∃ found found', (S.select k r).1 = .ok found ∧ (S.select k r').1 = .ok found' ∧
    found.map S.part = found'.map S.part

/-- A read of the keys gives the same of both replicas, in any order. -/
def SelectsManyAlike (ks : List String) (r r' : Replica) : Prop :=
  ∃ found found', (S.selectMany ks r).1 = .ok found ∧ (S.selectMany ks r').1 = .ok found' ∧
    (found.map S.part).Perm (found'.map S.part)

end Alike

/-- Faithful caches show the same of a row that is the same. -/
theorem shown_eq_of_faithful {r' : Replica} (h : S.Faithful r k) (h' : S.Faithful r' k)
    (hrow : (S.rows r').get? k = (S.rows r).get? k) : S.shown r k = S.shown r' k := by
  rw [h.shown_eq, h'.shown_eq, stored_congr hrow]

namespace Lawful

variable (hS : S.Lawful)
include hS

variable {r' : Replica} (hf : r.IsFaultless) (hr : r.IsLegible) (hf' : r'.IsFaultless)
  (hr' : r'.IsLegible)
include hf hr hf' hr'

theorem selectsAlike (h : S.shown r k = S.shown r' k) : S.SelectsAlike k r r' := by
  obtain ⟨found, hfound, hpart⟩ := hS.select_shown hf hr k
  obtain ⟨found', hfound', hpart'⟩ := hS.select_shown hf' hr' k
  exact ⟨found, found', hfound, hfound', hpart.trans (h.trans hpart'.symm)⟩

theorem selectsManyAlike {ks : List String} (h : ∀ k ∈ ks, S.shown r k = S.shown r' k) :
    S.SelectsManyAlike ks r r' := by
  obtain ⟨found, hfound, hperm⟩ := hS.selectMany_shown hf hr ks
  obtain ⟨found', hfound', hperm'⟩ := hS.selectMany_shown hf' hr' ks
  have hshown : (firstOfKeys ks).filterMap (S.shown r) = (firstOfKeys ks).filterMap (S.shown r') :=
    List.filterMap_congr fun k hk => h k (mem_firstOfKeys_iff.1 hk)
  refine ⟨found, found', hfound, hfound', hperm.trans ?_⟩
  rw [hshown]
  exact hperm'.symm

end Lawful

end Shelf

end OfflineChat
