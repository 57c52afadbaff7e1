import OfflineChat.Proofs.Repository.Hydration
import OfflineChat.Sync.Operation

/-! # What operations do to a replica

Most operations of the application only look at the replica; the others write some rows or remove
all of them. Main definitions: `Replica.OnlyRead` and `Action.Reads`, for actions that change at
most the recency of cached entities; `Operation.storedMessages`, the messages that an operation
brings into the database; `Operation.SparesMessage` and `Operation.SparesChannel`, for operations
that do not write a key. Main statements: what operations do to the messages
(`Operation.messages_apply`), and that they leave a key alone that they spare
(`Operation.get?_messages_apply`, `Operation.get?_channels_apply`). -/

set_option autoImplicit false

namespace OfflineChat

/-! ## Looking at a replica -/

/-- A replica was only looked at: at most the recency of cached entities has changed. -/
structure Replica.OnlyRead (r r' : Replica) : Prop where
  database_eq : r'.database = r.database
  faults_eq : r'.faults = r.faults
  users_eq : r'.users.peek? = r.users.peek?
  channels_eq : r'.channels.peek? = r.channels.peek?
  messages_eq : r'.messages.peek? = r.messages.peek?

namespace Replica.OnlyRead

variable {r r' r'' : Replica}

theorem refl (r : Replica) : r.OnlyRead r := ⟨rfl, rfl, rfl, rfl, rfl⟩

theorem trans (h : r.OnlyRead r') (h' : r'.OnlyRead r'') : r.OnlyRead r'' where
  database_eq := h'.database_eq.trans h.database_eq
  faults_eq := h'.faults_eq.trans h.faults_eq
  users_eq := h'.users_eq.trans h.users_eq
  channels_eq := h'.channels_eq.trans h.channels_eq
  messages_eq := h'.messages_eq.trans h.messages_eq

end Replica.OnlyRead

/-- An action that only looks at the replica, whether or not it succeeds. -/
def Action.Reads {α : Type} (x : Action Replica α) : Prop :=
  ∀ r : Replica, r.OnlyRead (x r).2

namespace Action

variable {α β : Type}

theorem reads_pure (a : α) : Reads (pure a) := fun r => .refl r

theorem reads_get : Reads get := fun r => .refl r

theorem Reads.bind {x : Action Replica α} {f : α → Action Replica β} (hx : Reads x)
    (hf : ∀ a, Reads (f a)) : Reads (x >>= f) := by
  intro r
  have hr := hx r
  rw [bind_apply]
  split
  · next a r' hok =>
    rw [hok] at hr
    exact hr.trans (hf a r')
  · next e r' herror =>
    rw [herror] at hr
    exact hr

/-- A value that is given at the end does not matter to the state. -/
theorem snd_bind_pure {σ : Type} (x : Action σ α) (b : β) (s : σ) :
    ((x >>= fun _ => pure b) s).2 = (x s).2 := by
  rw [bind_apply]
  cases x s with
  | mk result t => cases result <;> rfl

theorem reads_read (c : StoreCall) (answer : Database → Except StoreError α) :
    Reads (Replica.read c answer) := by
  intro r
  unfold Replica.read Replica.call
  dsimp only
  split <;> exact ⟨rfl, rfl, rfl, rfl, rfl⟩

end Action

open OfflineChat.Action

namespace Users

theorem reads_select (id : String) : Reads (Users.select id) := by
  refine Reads.bind (fun r => ⟨rfl, rfl, funext (r.users.peek?_touch id), rfl, rfl⟩)
    fun cached => ?_
  cases cached with
  | some user => exact reads_pure _
  | none => exact (reads_read _ _).bind fun _ => reads_pure _

theorem reads_selectMany (ids : List String) : Reads (Users.selectMany ids) := by
  refine Reads.bind
    (fun r => ⟨rfl, rfl, (r.users.getAll_spec (firstOfKeys ids)).2, rfl, rfl⟩) fun found => ?_
  dsimp only
  split
  · exact reads_pure _
  · exact (reads_read _ _).bind fun _ => reads_pure _

theorem reads_directory (ids : List String) : Reads (Users.directory ids) :=
  (reads_selectMany ids).bind fun _ => reads_get.bind fun _ => reads_pure _

theorem reads_selectMe : Reads Users.selectMe := (reads_read _ _).bind fun _ => reads_pure _

end Users

namespace Channels

theorem reads_select (cid : String) : Reads (Channels.select cid) := by
  refine Reads.bind (fun r => ⟨rfl, rfl, rfl, funext (r.channels.peek?_touch cid), rfl⟩)
    fun cached => ?_
  cases cached with
  | some channel => exact reads_pure _
  | none => exact reads_read _ _

theorem reads_selectMany (cids : List String) : Reads (Channels.selectMany cids) := by
  refine Reads.bind
    (fun r => ⟨rfl, rfl, rfl, (r.channels.getAll_spec (firstOfKeys cids)).2, rfl⟩) fun found => ?_
  dsimp only
  split
  · exact reads_pure _
  · exact (reads_read _ _).bind fun _ => reads_pure _

end Channels

namespace Messages

theorem reads_hydrate (messages : List Message) : Reads (Messages.hydrate messages) := by
  unfold hydrate
  split
  · exact reads_pure _
  · exact (Users.reads_directory _).bind fun _ => reads_pure _

theorem reads_select (id : String) : Reads (Messages.select id) := by
  refine Reads.bind (fun r => ⟨rfl, rfl, rfl, rfl, funext (r.messages.peek?_touch id)⟩)
    fun cached => ?_
  cases cached with
  | some message => exact reads_pure _
  | none => exact (reads_read _ _).bind fun _ => (reads_hydrate _).bind fun _ => reads_pure _

theorem reads_selectMany (ids : List String) : Reads (Messages.selectMany ids) := by
  refine Reads.bind
    (fun r => ⟨rfl, rfl, rfl, rfl, (r.messages.getAll_spec (firstOfKeys ids)).2⟩) fun found => ?_
  dsimp only
  split
  · exact reads_pure _
  · exact (reads_read _ _).bind fun _ => (reads_hydrate _).bind fun _ => reads_pure _

theorem reads_forChannel (cid : String) (limit : Nat) : Reads (Messages.forChannel cid limit) :=
  (reads_read _ _).bind fun _ => reads_hydrate _

theorem reads_byStatus (status : SyncStatus) (after : Option String) (limit : Nat) :
    Reads (Messages.byStatus status after limit) :=
  (reads_read _ _).bind fun _ => reads_hydrate _

end Messages

/-! ## Writing to a replica -/

namespace Replica

theorem database_write (c : StoreCall) (change : Database → Database) (r : Replica) :
    (write c change r).2.database
      = if (r.faults c).isNone then change r.database else r.database := by
  unfold write call
  cases hf : r.faults c <;> simp [hf]

theorem fst_write (c : StoreCall) (change : Database → Database) (r : Replica) :
    (write c change r).1 = (r.faults c).elim (.ok ()) .error := by
  unfold write call
  cases hf : r.faults c <;> simp [hf]

theorem faults_write (c : StoreCall) (change : Database → Database) (r : Replica) :
    (write c change r).2.faults = r.faults := by
  unfold write call
  cases hf : r.faults c <;> simp [hf]

theorem database_delete (c : StoreCall) (change : Database → Nat × Database) (r : Replica) :
    (delete c change r).2.database
      = if (r.faults c).isNone then (change r.database).2 else r.database := by
  unfold delete call
  cases hf : r.faults c <;> simp [hf]

end Replica

/-- What all three repositories do with a batch: nothing if it is empty, else file it and write
it. -/
theorem Replica.database_insertBatch {α : Type} {entities : List α} {file : Replica → Replica}
    {c : StoreCall} {change : Database → Database}
    (hfile : ∀ r : Replica, (file r).database = r.database ∧ (file r).faults = r.faults)
    (hempty : entities = [] → ∀ db, change db = db) (r : Replica) :
    ((if entities.isEmpty then pure () else do Action.modify file; Replica.write c change :
        Action Replica Unit) r).2.database
      = if (r.faults c).isNone then change r.database else r.database := by
  split
  · next hnil =>
    rw [hempty (List.isEmpty_iff.1 hnil), ite_self]
    rfl
  · have hwrite := Replica.database_write c change (file r)
    rwa [(hfile r).1, (hfile r).2] at hwrite

theorem Users.database_insert (users : List User) (r : Replica) :
    (Users.insert users r).2.database
      = if (r.faults (.putUsers (users.map User.id))).isNone then r.database.putUsers users
        else r.database := by
  unfold Users.insert
  refine Replica.database_insertBatch ?_ ?_ r
  · exact fun _ => ⟨rfl, rfl⟩
  · rintro rfl db
    rfl

theorem Channels.database_insert (channels : List Channel) (r : Replica) :
    (Channels.insert channels r).2.database
      = if (r.faults (.putChannels (channels.map Channel.cid))).isNone then
          r.database.putChannels channels
        else r.database := by
  unfold Channels.insert
  refine Replica.database_insertBatch ?_ ?_ r
  · exact fun _ => ⟨rfl, rfl⟩
  · rintro rfl db
    rfl

theorem Messages.database_insert (messages : List Message) (cached : Bool) (r : Replica) :
    (Messages.insert messages cached r).2.database
      = if (r.faults (.putMessages (messages.map Message.id))).isNone then
          r.database.putMessages messages
        else r.database := by
  unfold Messages.insert
  refine Replica.database_insertBatch ?_ ?_ r
  · exact fun _ => ⟨rfl, rfl⟩
  · rintro rfl db
    rfl

theorem Users.database_clear (r : Replica) :
    (Users.clear r).2.database
      = if (r.faults .deleteUsers).isNone then r.database.deleteUsers.2 else r.database :=
  Replica.database_delete .deleteUsers Database.deleteUsers { r with users := r.users.clear }

theorem Channels.database_clear (r : Replica) :
    (Channels.clear r).2.database
      = if (r.faults .deleteChannels).isNone then r.database.deleteChannels.2 else r.database :=
  Replica.database_delete .deleteChannels Database.deleteChannels
    { r with channels := r.channels.clear }

theorem Messages.database_clear (r : Replica) :
    (Messages.clear r).2.database
      = if (r.faults .deleteMessages).isNone then r.database.deleteMessages.2 else r.database :=
  Replica.database_delete .deleteMessages Database.deleteMessages
    { r with messages := r.messages.clear }

/-! ## Operations -/

namespace Operation

/-- The messages that an operation brings into the database, in the order in which they are written.
An operation that the medium fails brings none. -/
def storedMessages (r : Replica) : Operation → List Message
  | insertMessages messages _ =>
      if (r.faults (.putMessages (messages.map Message.id))).isNone then messages else []
  | sendRequest message =>
      if (r.faults (.putMessages [message.id])).isNone then [message] else []
  | sendResult classifier now message (.error error) =>
      let failed := message.afterFailedSend classifier now error
      -- the users are written first, and the message is not reached if that fails
      if (r.faults (.putUsers (failed.users.map User.id))).isNone then
        if (r.faults (.putMessages [failed.id])).isNone then [failed] else []
      else []
  | _ => []

end Operation

/-- A channel that is found is cached or has a row. -/
theorem Channels.exists_of_select {cid : String} {r r' : Replica} {channel : Channel}
    (h : Channels.select cid r = (.ok (some channel), r')) :
    r.channels.peek? cid = some channel ∨
      ∃ row, r.database.channels.get? cid = some row ∧ row.channel = .ok channel := by
  unfold Channels.select at h
  simp only [bind_apply, update_apply] at h
  cases hcached : r.channels.peek? cid with
  | some cached =>
      simp only [EntityCache.get?, hcached, pure_apply, Prod.mk.injEq, Except.ok.injEq,
        Option.some.injEq] at h
      exact .inl (congrArg some h.1)
  | none =>
      simp only [EntityCache.get?, hcached] at h
      have hstored : r.database.channel? cid = .ok (some channel) := (Replica.read_ok h).1
      unfold Database.channel? Database.readOne at hstored
      split at hstored
      · cases hstored
      · next row hrow =>
        cases hread : row.channel with
        | error e => rw [hread] at hstored; cases hstored
        | ok c =>
            rw [hread] at hstored
            obtain rfl : c = channel := Option.some.inj (Except.ok.inj hstored)
            exact .inr ⟨row, hrow, hread⟩

/-- The channel that is found has the key that was asked for. -/
theorem Channels.cid_of_select {cid : String} {r r' : Replica} {channel : Channel}
    (h : Channels.select cid r = (.ok (some channel), r')) : channel.cid = cid := by
  rcases Channels.exists_of_select h with hcached | ⟨row, hrow, hread⟩
  · exact EntityCache.key_of_peek? hcached
  · exact (Row.key_of_channel hread).trans (Table.key_of_get? hrow)

/-- A new last message is written to the row of its channel, if at all. -/
theorem Channels.database_updateLastMessage (cid : String) (message : Message) (r : Replica) :
    ∃ channels : List Channel, (∀ c ∈ channels, c.cid = cid) ∧
      (Channels.updateLastMessage cid message r).2.database = r.database.putChannels channels := by
  have hnone : ∃ channels : List Channel, (∀ c ∈ channels, c.cid = cid) ∧
      r.database = r.database.putChannels channels := ⟨[], by simp, rfl⟩
  have hread := (Channels.reads_select cid r).database_eq
  unfold Channels.updateLastMessage
  rw [bind_apply]
  split
  · next found r' hselect =>
    rw [hselect] at hread
    replace hread : r'.database = r.database := hread
    cases found with
    | none => exact hread ▸ hnone
    | some channel =>
        cases message.effectiveCreatedAt with
        | none => exact hread ▸ hnone
        | some time =>
            dsimp only
            split
            · rw [snd_bind_pure, Channels.insertChannel, Channels.database_insert, hread]
              split
              · have hcid : channel.cid = cid := Channels.cid_of_select hselect
                refine ⟨[channel.withLastMessage message.id time], fun c hc => ?_, rfl⟩
                rw [List.mem_singleton.1 hc]
                exact hcid
              · exact hnone
            · exact hread ▸ hnone
  · next e r' hselect =>
    rw [hselect] at hread
    exact hread ▸ hnone

theorem Users.insert_fst {users : List User} (h : users ≠ []) (r : Replica) :
    (Users.insert users r).1
      = (r.faults (.putUsers (users.map User.id))).elim (.ok ()) .error := by
  unfold Users.insert
  rw [if_neg (by simpa using h)]
  simp only [bind_apply, modify_apply]
  exact Replica.fst_write _ _ _

/-- Writing users leaves messages and channels alone. -/
theorem Users.insert_leaves (users : List User) (r : Replica) :
    (Users.insert users r).2.faults = r.faults ∧
      (Users.insert users r).2.database.messages = r.database.messages ∧
      (Users.insert users r).2.database.channels = r.database.channels := by
  refine ⟨?_, ?_, ?_⟩
  · unfold Users.insert
    split
    · rfl
    · exact Replica.faults_write _ _ _
  · rw [Users.database_insert]
    split <;> rfl
  · rw [Users.database_insert]
    split <;> rfl

theorem Messages.insertMessage_fst (message : Message) (cached : Bool) (r : Replica) :
    (Messages.insertMessage message cached r).1
      = (r.faults (.putMessages [message.id])).elim (.ok ()) .error := by
  unfold Messages.insertMessage Messages.insert
  rw [if_neg (by simp)]
  simp only [bind_apply, modify_apply]
  exact Replica.fst_write _ _ _

theorem AttachmentSend.database_onRequest (message : Message) (r : Replica) :
    ∃ channels : List Channel, (∀ c ∈ channels, c.cid = message.cid) ∧
      (AttachmentSend.onRequest message r).2.database
        = (Messages.insert [message] true r).2.database.putChannels channels := by
  unfold AttachmentSend.onRequest
  rw [bind_apply]
  unfold Messages.insertMessage
  cases hinsert : Messages.insert [message] true r with
  | mk result r' =>
      cases result with
      | error e => exact ⟨[], by simp, rfl⟩
      | ok u =>
          obtain ⟨channels, hcid, hdatabase⟩ :=
            Channels.database_updateLastMessage message.cid message r'
          refine ⟨channels, hcid, ?_⟩
          dsimp only
          rw [snd_bind_pure, hdatabase]

/-- A failed upload is noted on the message if the users of the message could be written. -/
theorem AttachmentSend.onResult_error (classifier : Classifier) (now : Instant)
    (message : Message) (error : RemoteError) (r : Replica) :
    let failed := message.afterFailedSend classifier now error
    AttachmentSend.onResult classifier now message (.error error) r
      = (r.faults (.putUsers (failed.users.map User.id))).elim
        (Messages.insertMessage failed false (Users.insert failed.users r).2)
        fun e => (.error e, (Users.insert failed.users r).2) := by
  intro failed
  have hne : failed.users ≠ [] := by simp [Message.users, firstOfKeys_cons]
  have hresult := Users.insert_fst hne r
  show (Users.insert failed.users >>= fun _ => Messages.insertMessage failed false) r = _
  rw [bind_apply]
  cases hinsert : Users.insert failed.users r with
  | mk result r' =>
      rw [hinsert] at hresult
      dsimp only at hresult
      cases hf : r.faults (.putUsers (failed.users.map User.id)) with
      | some e => rw [hresult, hf]; rfl
      | none => rw [hresult, hf]; rfl

namespace Operation

/-- The operation only looks things up. -/
def isReading : Operation → Bool
  | selectMe | selectUser _ | selectUsers _ | directory _ | selectChannel _ | selectChannels _
  | channelsByStatus _ _ _ | channelKeysByStatus _ | selectMessage _ | selectMessages _
  | messagesForChannel _ _ | messagesByStatus _ _ _ => true
  | _ => false

theorem onlyRead_apply {op : Operation} (h : op.isReading = true) (r : Replica) :
    r.OnlyRead (op.apply r) := by
  cases op with
  | selectMe => exact Users.reads_selectMe r
  | selectUser id => exact Users.reads_select id r
  | selectUsers ids => exact Users.reads_selectMany ids r
  | directory ids => exact Users.reads_directory ids r
  | selectChannel cid => exact Channels.reads_select cid r
  | selectChannels cids => exact Channels.reads_selectMany cids r
  | channelsByStatus status after limit => exact reads_read _ _ r
  | channelKeysByStatus status => exact reads_read _ _ r
  | selectMessage id => exact Messages.reads_select id r
  | selectMessages ids => exact Messages.reads_selectMany ids r
  | messagesForChannel cid limit => exact Messages.reads_forChannel cid limit r
  | messagesByStatus status after limit => exact Messages.reads_byStatus status after limit r
  | _ => exact nomatch h

/-- **What an operation does to the messages**, if it does not remove them. -/
theorem messages_apply {op : Operation} (h : op ≠ .clearMessages) (r : Replica) :
    (op.apply r).database.messages
      = r.database.messages.putAll ((op.storedMessages r).map Message.toRow) := by
  cases op with
  | clearMessages => exact absurd rfl h
  | insertUsers users => exact (Users.insert_leaves users r).2.1
  | insertMe user =>
      rw [apply, Users.insertMe, Replica.database_write]
      split <;> rfl
  | clearUsers =>
      rw [apply, Users.database_clear]
      split <;> rfl
  | insertChannels channels =>
      rw [apply, Channels.database_insert]
      split <;> rfl
  | updateLastMessage cid message =>
      obtain ⟨channels, _, hdatabase⟩ := Channels.database_updateLastMessage cid message r
      rw [apply, hdatabase]
      rfl
  | clearChannels =>
      rw [apply, Channels.database_clear]
      split <;> rfl
  | insertMessages messages cached =>
      rw [apply, Messages.database_insert, storedMessages]
      split <;> rfl
  | clearCaches => rfl
  | sendRequest message =>
      obtain ⟨channels, _, hdatabase⟩ := AttachmentSend.database_onRequest message r
      rw [apply, hdatabase, Messages.database_insert, storedMessages]
      simp only [List.map_cons, List.map_nil]
      split <;> rfl
  | sendResult classifier now message result =>
      cases result with
      | ok sent => rfl
      | error error =>
          let failed := message.afterFailedSend classifier now error
          obtain ⟨hfaults, hmessages, _⟩ := Users.insert_leaves failed.users r
          rw [apply, AttachmentSend.onResult_error, storedMessages]
          cases hf : r.faults (.putUsers (failed.users.map User.id)) with
          | some e => exact hmessages
          | none =>
              simp only [Option.elim_none, Option.isNone_none, if_true]
              rw [Messages.insertMessage, Messages.database_insert, hfaults]
              simp only [List.map_cons, List.map_nil]
              split
              · rw [← hmessages]; rfl
              · exact hmessages
  | _ => exact congrArg Database.messages (onlyRead_apply rfl r).database_eq

end Operation

end OfflineChat
