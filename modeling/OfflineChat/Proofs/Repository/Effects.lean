import OfflineChat.Proofs.Repository.Shown

/-! # What operations do to the shelves

An operation writes to a repository, removes what it holds or leaves it alone, and all of that is
told by its effects on the single keys. Main statements: what an operation does to a key is the
effect that its shelf says (`userShelf_follows`, `channelShelf_follows`, `messageShelf_follows`). -/

set_option autoImplicit false

namespace OfflineChat

open OfflineChat.Action

/-! ## Replicas after single calls -/

theorem Replica.snd_write (c : StoreCall) (change : Database → Database) (r : Replica) :
    (Replica.write c change r).2 = { r with
      calls := c :: r.calls
      database := if (r.faults c).isNone then change r.database else r.database } := by
  unfold Replica.write Replica.call
  cases hf : r.faults c <;> simp [hf]

theorem Replica.snd_delete (c : StoreCall) (change : Database → Nat × Database) (r : Replica) :
    (Replica.delete c change r).2 = { r with
      calls := c :: r.calls
      database := if (r.faults c).isNone then (change r.database).2 else r.database } := by
  unfold Replica.delete Replica.call
  cases hf : r.faults c <;> simp [hf]

/-- What all three repositories do with a batch: file it, and write it if the medium allows it. -/
theorem Replica.snd_insertBatch {α : Type} {entities : List α} {file : Replica → Replica}
    {c : StoreCall} {change : Database → Database} {r : Replica}
    (hfile : (file r).database = r.database ∧ (file r).faults = r.faults)
    (hempty : entities = [] → file r = r ∧ change r.database = r.database) :
    ((if entities.isEmpty then pure () else do Action.modify file; Replica.write c change :
        Action Replica Unit) r).2
      = { file r with
          database := if (r.faults c).isNone then change r.database else r.database
          calls := ((if entities.isEmpty then pure () else do
            Action.modify file; Replica.write c change : Action Replica Unit) r).2.calls } := by
  by_cases hnil : entities = []
  · obtain ⟨hfiled, hchange⟩ := hempty hnil
    rw [hnil, hfiled, hchange, ite_self]
    rfl
  · rw [if_neg (by simpa using hnil)]
    simp only [bind_apply, modify_apply, Replica.snd_write, hfile.1, hfile.2]

theorem Users.snd_insert (users : List User) (r : Replica) :
    (Users.insert users r).2 = { r with
      users := r.users.putAll users
      database := if (r.faults (.putUsers (users.map User.id))).isNone then
        r.database.putUsers users else r.database
      calls := (Users.insert users r).2.calls } := by
  refine Replica.snd_insertBatch ⟨rfl, rfl⟩ ?_
  rintro rfl
  exact ⟨rfl, rfl⟩

theorem Channels.snd_insert (channels : List Channel) (r : Replica) :
    (Channels.insert channels r).2 = { r with
      channels := r.channels.putAll channels
      database := if (r.faults (.putChannels (channels.map Channel.cid))).isNone then
        r.database.putChannels channels else r.database
      calls := (Channels.insert channels r).2.calls } := by
  refine Replica.snd_insertBatch ⟨rfl, rfl⟩ ?_
  rintro rfl
  exact ⟨rfl, rfl⟩

theorem Messages.snd_insert (messages : List Message) (cached : Bool) (r : Replica) :
    (Messages.insert messages cached r).2 = { r with
      messages := if cached then r.messages.putAll messages
        else r.messages.removeAll (messages.map Message.id)
      database := if (r.faults (.putMessages (messages.map Message.id))).isNone then
        r.database.putMessages messages else r.database
      calls := (Messages.insert messages cached r).2.calls } := by
  refine Replica.snd_insertBatch ⟨rfl, rfl⟩ ?_
  rintro rfl
  cases cached <;> exact ⟨rfl, rfl⟩

theorem Users.snd_clear (r : Replica) :
    (Users.clear r).2 = { r with
      users := r.users.clear
      database := if (r.faults .deleteUsers).isNone then r.database.deleteUsers.2 else r.database
      calls := .deleteUsers :: r.calls } :=
  Replica.snd_delete .deleteUsers Database.deleteUsers { r with users := r.users.clear }

theorem Channels.snd_clear (r : Replica) :
    (Channels.clear r).2 = { r with
      channels := r.channels.clear
      database := if (r.faults .deleteChannels).isNone then r.database.deleteChannels.2
        else r.database
      calls := .deleteChannels :: r.calls } :=
  Replica.snd_delete .deleteChannels Database.deleteChannels
    { r with channels := r.channels.clear }

theorem Messages.snd_clear (r : Replica) :
    (Messages.clear r).2 = { r with
      messages := r.messages.clear
      database := if (r.faults .deleteMessages).isNone then r.database.deleteMessages.2
        else r.database
      calls := .deleteMessages :: r.calls } :=
  Replica.snd_delete .deleteMessages Database.deleteMessages
    { r with messages := r.messages.clear }

/-- A new last message writes the channel that it makes, if it makes one. -/
theorem Channels.snd_updateLastMessage (cid : String) (message : Message) (r : Replica) :
    (Channels.updateLastMessage cid message r).2
      = (Channels.insert (Operation.renewedChannels cid message r)
          (Channels.select cid r).2).2 := by
  unfold Channels.updateLastMessage Operation.renewedChannels
  rw [bind_apply]
  cases hselect : Channels.select cid r with
  | mk result r' =>
      cases result with
      | error e => rfl
      | ok found =>
          cases found with
          | none => rfl
          | some channel =>
              cases message.effectiveCreatedAt with
              | none => rfl
              | some time =>
                  dsimp only
                  split
                  · exact snd_bind_pure _ _ _
                  · rfl

/-- Before an upload the message is written, and then the channel if that has succeeded. -/
theorem AttachmentSend.snd_onRequest (message : Message) (r : Replica) :
    (AttachmentSend.onRequest message r).2
      = if (r.faults (.putMessages [message.id])).isNone then
          (Channels.updateLastMessage message.cid message
            (Messages.insert [message] true r).2).2
        else (Messages.insert [message] true r).2 := by
  have hresult := Messages.insertMessage_fst message true r
  unfold AttachmentSend.onRequest
  rw [bind_apply]
  unfold Messages.insertMessage at hresult ⊢
  cases hinsert : Messages.insert [message] true r with
  | mk result r' =>
      rw [hinsert] at hresult
      cases hf : r.faults (.putMessages [message.id]) with
      | some e =>
          rw [hf] at hresult
          obtain rfl : result = .error e := hresult
          rfl
      | none =>
          rw [hf] at hresult
          obtain rfl : result = .ok () := hresult
          exact snd_bind_pure _ _ _

/-! ## Shelves that are left alone -/

section Spares

variable {r r' : Replica}

/-- A table that a change spares stays as it is, whether or not the change is made. -/
theorem Database.table_ite (table : Database → Table Row) {p : Prop} [Decidable p]
    {db db' : Database} (h : table db' = table db) : table (if p then db' else db) = table db := by
  rw [apply_ite table, h, ite_self]

theorem userShelf_spares (h : r.OnlyRead r') : userShelf.Spares r r' :=
  ⟨h.users_eq, congrArg Database.users h.database_eq⟩

theorem channelShelf_spares (h : r.OnlyRead r') : channelShelf.Spares r r' :=
  ⟨h.channels_eq, congrArg Database.channels h.database_eq⟩

theorem messageShelf_spares (h : r.OnlyRead r') : messageShelf.Spares r r' :=
  ⟨h.messages_eq, congrArg Database.messages h.database_eq⟩

theorem Users.insert_spares (users : List User) (r : Replica) :
    channelShelf.Spares r (Users.insert users r).2 ∧
      messageShelf.Spares r (Users.insert users r).2 := by
  rw [Users.snd_insert]
  exact ⟨⟨rfl, Database.table_ite Database.channels rfl⟩,
    ⟨rfl, Database.table_ite Database.messages rfl⟩⟩

theorem Channels.insert_spares (channels : List Channel) (r : Replica) :
    userShelf.Spares r (Channels.insert channels r).2 ∧
      messageShelf.Spares r (Channels.insert channels r).2 := by
  rw [Channels.snd_insert]
  exact ⟨⟨rfl, Database.table_ite Database.users rfl⟩,
    ⟨rfl, Database.table_ite Database.messages rfl⟩⟩

theorem Messages.insert_spares (messages : List Message) (cached : Bool) (r : Replica) :
    userShelf.Spares r (Messages.insert messages cached r).2 ∧
      channelShelf.Spares r (Messages.insert messages cached r).2 := by
  rw [Messages.snd_insert]
  exact ⟨⟨rfl, Database.table_ite Database.users rfl⟩,
    ⟨rfl, Database.table_ite Database.channels rfl⟩⟩

theorem Users.clear_spares (r : Replica) :
    channelShelf.Spares r (Users.clear r).2 ∧ messageShelf.Spares r (Users.clear r).2 := by
  rw [Users.snd_clear]
  exact ⟨⟨rfl, Database.table_ite Database.channels rfl⟩,
    ⟨rfl, Database.table_ite Database.messages rfl⟩⟩

theorem Channels.clear_spares (r : Replica) :
    userShelf.Spares r (Channels.clear r).2 ∧ messageShelf.Spares r (Channels.clear r).2 := by
  rw [Channels.snd_clear]
  exact ⟨⟨rfl, Database.table_ite Database.users rfl⟩,
    ⟨rfl, Database.table_ite Database.messages rfl⟩⟩

theorem Messages.clear_spares (r : Replica) :
    userShelf.Spares r (Messages.clear r).2 ∧ channelShelf.Spares r (Messages.clear r).2 := by
  rw [Messages.snd_clear]
  exact ⟨⟨rfl, Database.table_ite Database.users rfl⟩,
    ⟨rfl, Database.table_ite Database.channels rfl⟩⟩

theorem Users.insertMe_spares (user : User) (r : Replica) :
    channelShelf.Spares r (Users.insertMe user r).2 ∧
      messageShelf.Spares r (Users.insertMe user r).2 := by
  rw [Users.insertMe, Replica.snd_write]
  exact ⟨⟨rfl, Database.table_ite Database.channels rfl⟩,
    ⟨rfl, Database.table_ite Database.messages rfl⟩⟩

/-- A new last message leaves users and messages alone. -/
theorem Channels.updateLastMessage_spares (cid : String) (message : Message) (r : Replica) :
    userShelf.Spares r (Channels.updateLastMessage cid message r).2 ∧
      messageShelf.Spares r (Channels.updateLastMessage cid message r).2 := by
  have hread := Channels.reads_select cid r
  obtain ⟨husers, hmessages⟩ := Channels.insert_spares
    (Operation.renewedChannels cid message r) (Channels.select cid r).2
  rw [Channels.snd_updateLastMessage]
  exact ⟨(userShelf_spares hread).trans husers, (messageShelf_spares hread).trans hmessages⟩

end Spares

/-! ## Batches and removals -/

section Batches

variable (r : Replica) (k : String)

theorem Users.follows_insert (users : List User) :
    userShelf.Follows k r (Users.insert users r).2
      (.ofBatch (r.faults (.putUsers (users.map User.id))) users k) := by
  have hrows : (r.database.putUsers users).users
      = (userShelf.rows r).putAll (users.map userShelf.toRow) := by
    rw [Database.putUsers, Database.putUserRecords, List.map_map]
    rfl
  rw [Users.snd_insert]
  refine Shelf.follows_ofBatch rfl ?_
  rw [← hrows]
  exact apply_ite Database.users _ _ _

theorem Channels.follows_insert (channels : List Channel) :
    channelShelf.Follows k r (Channels.insert channels r).2
      (.ofBatch (r.faults (.putChannels (channels.map Channel.cid))) channels k) := by
  rw [Channels.snd_insert]
  exact Shelf.follows_ofBatch rfl (apply_ite Database.channels _ _ _)

theorem Messages.follows_insert (messages : List Message) :
    messageShelf.Follows k r (Messages.insert messages true r).2
      (.ofBatch (r.faults (.putMessages (messages.map Message.id))) messages k) := by
  rw [Messages.snd_insert]
  exact Shelf.follows_ofBatch rfl (apply_ite Database.messages _ _ _)

/-- Messages that are written past the cache are taken out of it. -/
theorem Messages.follows_insert_uncached (messages : List Message) :
    messageShelf.Follows k r (Messages.insert messages false r).2
      (.ofUncached (r.faults (.putMessages (messages.map Message.id))) messages k) := by
  rw [Messages.snd_insert]
  exact Shelf.follows_ofUncached rfl (apply_ite Database.messages _ _ _)

theorem Users.follows_clear :
    userShelf.Follows k r (Users.clear r).2 (.ofDelete (r.faults .deleteUsers)) := by
  rw [Users.snd_clear]
  exact Shelf.follows_ofDelete rfl (apply_ite Database.users _ _ _)

theorem Channels.follows_clear :
    channelShelf.Follows k r (Channels.clear r).2 (.ofDelete (r.faults .deleteChannels)) := by
  rw [Channels.snd_clear]
  exact Shelf.follows_ofDelete rfl (apply_ite Database.channels _ _ _)

theorem Messages.follows_clear :
    messageShelf.Follows k r (Messages.clear r).2 (.ofDelete (r.faults .deleteMessages)) := by
  rw [Messages.snd_clear]
  exact Shelf.follows_ofDelete rfl (apply_ite Database.messages _ _ _)

/-- The session user is written past the cache, under a key of its own. -/
theorem Users.follows_insertMe (user : User) :
    userShelf.Follows k r (Users.insertMe user r).2
      (Operation.userEffect (.insertMe user) r k) := by
  by_cases hok : (r.faults (.putUserRecord sessionUserId (some user.id))).isNone
  · by_cases hk : k = sessionUserId
    · have heffect : Operation.userEffect (.insertMe user) r k
          = .bypasses { user with id := sessionUserId } := if_pos ⟨hk, hok⟩
      let record : UserRecord := ⟨{ user with id := sessionUserId }, some user.id⟩
      rw [heffect, Users.insertMe, Replica.snd_write]
      refine ⟨fun b hb => hb, record.toRow, ?_, fun hreadable => ?_⟩
      · simp only [userShelf, hok, if_true, hk]
        exact Table.get?_put_self r.database.users record.toRow
      · have hread : record.toRow.userRecord = .ok record := User.readBack_eq hreadable
        exact congrArg (Except.map UserRecord.user) hread
    · have heffect : Operation.userEffect (.insertMe user) r k = .keeps := if_neg fun h => hk h.1
      rw [heffect, Users.insertMe, Replica.snd_write]
      refine ⟨fun b hb => hb, ?_⟩
      simp only [userShelf, hok, if_true]
      exact Table.get?_put_of_ne r.database.users (Ne.symm hk)
  · have heffect : Operation.userEffect (.insertMe user) r k = .keeps := if_neg fun h => hok h.2
    rw [heffect, Users.insertMe, Replica.snd_write]
    refine ⟨fun b hb => hb, ?_⟩
    simp only [userShelf, hok, if_false, Bool.false_eq_true]

end Batches

/-! ## Operations -/

/-- A failed upload writes the users of the message, and then the message past the cache. -/
theorem AttachmentSend.snd_onResult_error (classifier : Classifier) (now : Instant)
    (message : Message) (error : RemoteError) (r : Replica) :
    let failed := message.afterFailedSend classifier now error
    (AttachmentSend.onResult classifier now message (.error error) r).2
      = if (r.faults (.putUsers (failed.users.map User.id))).isNone then
          (Messages.insert [failed] false (Users.insert failed.users r).2).2
        else (Users.insert failed.users r).2 := by
  intro failed
  rw [AttachmentSend.onResult_error]
  cases hf : r.faults (.putUsers (failed.users.map User.id)) <;> rfl

/-- What an operation does to a user is its effect. -/
theorem userShelf_follows (op : Operation) (r : Replica) (k : String) :
    userShelf.Follows k r (op.apply r) (op.userEffect r k) := by
  cases op with
  | insertUsers users => exact Users.follows_insert r k users
  | insertMe user => exact Users.follows_insertMe r k user
  | clearUsers => exact Users.follows_clear r k
  | insertChannels channels => exact (Channels.insert_spares channels r).1.keeps
  | updateLastMessage cid message =>
      exact (Channels.updateLastMessage_spares cid message r).1.keeps
  | clearChannels => exact (Channels.clear_spares r).1.keeps
  | insertMessages messages cached => exact (Messages.insert_spares messages cached r).1.keeps
  | clearMessages => exact (Messages.clear_spares r).1.keeps
  | clearCaches => exact ⟨fun b hb => absurd hb (by simp [userShelf, Operation.apply,
      Replica.clearCaches]), rfl⟩
  | sendRequest message =>
      have hmessage := (Messages.insert_spares [message] true r).1
      rw [Operation.apply, AttachmentSend.snd_onRequest]
      split
      · exact (hmessage.trans (Channels.updateLastMessage_spares _ _ _).1).keeps
      · exact hmessage.keeps
  | sendResult classifier now message result =>
      cases result with
      | ok sent => exact Shelf.Spares.keeps ⟨rfl, rfl⟩
      | error error =>
          have husers := Users.follows_insert r k
            (message.afterFailedSend classifier now error).users
          rw [Operation.apply, AttachmentSend.snd_onResult_error]
          split
          · exact husers.spares (Messages.insert_spares _ _ _).1
          · exact husers
  | _ => exact (userShelf_spares (Operation.onlyRead_apply rfl r)).keeps

/-- What a new last message does to a channel is its effect. -/
theorem Channels.follows_updateLastMessage (cid : String) (message : Message) (r : Replica)
    (k : String) : channelShelf.Follows k r (Channels.updateLastMessage cid message r).2
      (Operation.lastMessageEffect cid message r k) := by
  have hread := Channels.reads_select cid r
  have hinsert := Channels.follows_insert (Channels.select cid r).2 k
    (Operation.renewedChannels cid message r)
  rw [hread.faults_eq] at hinsert
  rw [Channels.snd_updateLastMessage]
  exact (channelShelf_spares hread).follows hinsert

/-- What was done to messages does not matter to a new last message. -/
theorem Operation.lastMessageEffect_insert (cid : String) (message : Message)
    (messages : List Message) (cached : Bool) (r : Replica) (k : String) :
    lastMessageEffect cid message (Messages.insert messages cached r).2 k
      = lastMessageEffect cid message r k := by
  have hselect : (Channels.select cid (Messages.insert messages cached r).2).1
      = (Channels.select cid r).1 := by
    have hrows := (Messages.insert_spares messages cached r).2.rows_eq
    have hread : (Messages.insert messages cached r).2.database.channel? cid
        = r.database.channel? cid := congrArg (Database.readOne Row.channel · cid) hrows
    rw [Channels.fst_select, Channels.fst_select, hread, Messages.snd_insert]
  have hfaults : (Messages.insert messages cached r).2.faults = r.faults := by
    rw [Messages.snd_insert]
  unfold lastMessageEffect renewedChannels
  rw [hselect, hfaults]

/-- What an operation does to a channel is its effect. -/
theorem channelShelf_follows (op : Operation) (r : Replica) (k : String) :
    channelShelf.Follows k r (op.apply r) (op.channelEffect r k) := by
  cases op with
  | insertUsers users => exact (Users.insert_spares users r).1.keeps
  | insertMe user => exact (Users.insertMe_spares user r).1.keeps
  | clearUsers => exact (Users.clear_spares r).1.keeps
  | insertChannels channels => exact Channels.follows_insert r k channels
  | updateLastMessage cid message => exact Channels.follows_updateLastMessage cid message r k
  | clearChannels => exact Channels.follows_clear r k
  | insertMessages messages cached => exact (Messages.insert_spares messages cached r).2.keeps
  | clearMessages => exact (Messages.clear_spares r).2.keeps
  | clearCaches => exact ⟨fun b hb => absurd hb (by simp [channelShelf, Operation.apply,
      Replica.clearCaches]), rfl⟩
  | sendRequest message =>
      have hmessage := (Messages.insert_spares [message] true r).2
      rw [Operation.apply, AttachmentSend.snd_onRequest, Operation.channelEffect]
      split
      · have hupdate := Channels.follows_updateLastMessage message.cid message
          (Messages.insert [message] true r).2 k
        rw [Operation.lastMessageEffect_insert] at hupdate
        exact hmessage.follows hupdate
      · exact hmessage.keeps
  | sendResult classifier now message result =>
      cases result with
      | ok sent => exact Shelf.Spares.keeps ⟨rfl, rfl⟩
      | error error =>
          have husers := (Users.insert_spares
            (message.afterFailedSend classifier now error).users r).1
          rw [Operation.apply, AttachmentSend.snd_onResult_error]
          split
          · exact (husers.trans (Messages.insert_spares _ _ _).2).keeps
          · exact husers.keeps
  | _ => exact (channelShelf_spares (Operation.onlyRead_apply rfl r)).keeps

/-- What an operation does to a message is its effect. -/
theorem messageShelf_follows (op : Operation) (r : Replica) (k : String) :
    messageShelf.Follows k r (op.apply r) (op.messageEffect r k) := by
  cases op with
  | insertUsers users => exact (Users.insert_spares users r).2.keeps
  | insertMe user => exact (Users.insertMe_spares user r).2.keeps
  | clearUsers => exact (Users.clear_spares r).2.keeps
  | insertChannels channels => exact (Channels.insert_spares channels r).2.keeps
  | updateLastMessage cid message =>
      exact (Channels.updateLastMessage_spares cid message r).2.keeps
  | clearChannels => exact (Channels.clear_spares r).2.keeps
  | insertMessages messages cached =>
      cases cached with
      | true => exact Messages.follows_insert r k messages
      | false => exact Messages.follows_insert_uncached r k messages
  | clearMessages => exact Messages.follows_clear r k
  | clearCaches => exact ⟨fun b hb => absurd hb (by simp [messageShelf, Operation.apply,
      Replica.clearCaches]), rfl⟩
  | sendRequest message =>
      have hmessage := Messages.follows_insert r k [message]
      rw [Operation.apply, AttachmentSend.snd_onRequest]
      split
      · exact hmessage.spares (Channels.updateLastMessage_spares _ _ _).2
      · exact hmessage
  | sendResult classifier now message result =>
      cases result with
      | ok sent => exact Shelf.Spares.keeps ⟨rfl, rfl⟩
      | error error =>
          let failed := message.afterFailedSend classifier now error
          have husers := (Users.insert_spares failed.users r).2
          have hmessage := Messages.follows_insert_uncached (Users.insert failed.users r).2 k
            [failed]
          rw [(Users.insert_leaves failed.users r).1] at hmessage
          rw [Operation.apply, AttachmentSend.snd_onResult_error, Operation.messageEffect]
          split
          · exact husers.follows hmessage
          · exact husers.keeps
  | _ => exact (messageShelf_spares (Operation.onlyRead_apply rfl r)).keeps

end OfflineChat
