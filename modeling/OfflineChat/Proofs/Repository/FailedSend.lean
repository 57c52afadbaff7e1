import OfflineChat.Proofs.Repository.CompletedReads
import OfflineChat.Proofs.Repository.Effects

/-! # What is noted of a failed upload

A message whose attachments could not be uploaded is written again, past the cache, and its users
before it, through the cache. Main definitions: `Message.firstNamed` and `Message.shownUser`, which
of several users of one id is meant; `Message.IsReadBack`; and `RecordsFailure`, what the replica is
like when all of it was written. Main statement: the failure is recorded as a whole, or the row of
the message stays as it was (`AttachmentSend.failure_recorded`). -/

set_option autoImplicit false

namespace OfflineChat

open OfflineChat.Action

/-! ## Users of one id -/

/-- Of the users that a message refers to, author first, the first one with the id of this one. -/
def Message.firstNamed (m : Message) (u : User) : User :=
  ((m.user :: m.mentionedUsers).find? fun v => v.id == u.id).getD u

/-- The user who is shown where the message refers to this one: the current user, if they have the
same id, else the first one with the id. -/
def Message.shownUser (m : Message) (me : Option User) (u : User) : User :=
  (me.filter fun v => v.id == u.id).getD (m.firstNamed u)

/-- Message and users are read back from their rows. -/
structure Message.IsReadBack (m : Message) : Prop where
  message : m.toRow.message = .ok m.withUserIds
  users : ∀ u ∈ m.users, (⟨u, none⟩ : UserRecord).toRow.userRecord = .ok ⟨u, none⟩

/-- The replica after a failed upload, when users and message were written. The message is then
`failed`. -/
structure RecordsFailure (m failed : Message) (r r' : Replica) : Prop where
  message : r'.database.message? m.id = .ok (some failed.withUserIds)
  uncached : r'.messages.peek? m.id = none
  /-- Of each id the first user is stored, without another id beside it. -/
  users : ∀ u ∈ m.user :: m.mentionedUsers,
    r'.database.userRecord? u.id = .ok (some ⟨m.firstNamed u, none⟩)
  otherUsers : ∀ id ∉ m.userIds, r'.database.users.get? id = r.database.users.get? id ∧
    ∀ u, r'.users.peek? id = some u → r.users.peek? id = some u
  channels : r'.database.channels = r.database.channels ∧ r'.channels = r.channels
  otherMessages : ∀ id, id ≠ m.id →
    r'.database.messages.get? id = r.database.messages.get? id ∧
    r'.messages.peek? id = r.messages.peek? id
  /-- The message is then found with these users, and with the current one. -/
  select : r.faults (.message m.id) = none → (∀ ids, r.faults (.users ids) = none) →
    (Messages.select m.id r').1 = .ok (some { failed with
      user := m.shownUser r.currentUser m.user
      mentionedUsers := m.mentionedUsers.map (m.shownUser r.currentUser) })

/-! ## The first item of a key -/

section

variable {α : Type} [Keyed α]

/-- The first item of a key is kept. -/
theorem mem_firstOfKeys_of_find? {as : List α} {k : String} {a : α}
    (h : as.find? (fun b => key b == k) = some a) : a ∈ firstOfKeys as := by
  induction as with
  | nil => exact nomatch h
  | cons b as ih =>
      rw [firstOfKeys_cons, List.mem_cons]
      by_cases hb : key b = k
      · rw [List.find?_cons_of_pos (by simpa using hb)] at h
        exact .inl (Option.some.inj h).symm
      · rw [List.find?_cons_of_neg (by simpa using hb)] at h
        have ha : key a = k := by simpa using List.find?_some h
        refine .inr (List.mem_filter.2 ⟨ih h, ?_⟩)
        rw [ha, bne_iff_ne]
        exact Ne.symm hb

/-- Where keys are distinct, each item is the last one of its key. -/
theorem lastOfKey_of_nodup {as : List α} (h : (as.map key).Nodup) {a : α} (ha : a ∈ as) :
    lastOfKey as (key a) = some a := by
  cases hlast : lastOfKey as (key a) with
  | none => exact absurd (List.mem_map_of_mem ha) (lastOfKey_eq_none_iff.1 hlast)
  | some b =>
      have hb := mem_of_lastOfKey hlast
      rw [List.inj_on_of_nodup_map h hb ha (key_of_lastOfKey hlast)]

end

namespace Message

variable {m : Message} {u : User}

/-- Each user that a message refers to stands for one that is written. -/
theorem firstNamed_spec (hu : u ∈ m.user :: m.mentionedUsers) :
    m.firstNamed u ∈ m.users ∧ (m.firstNamed u).id = u.id := by
  cases hfirst : (m.user :: m.mentionedUsers).find? fun v => v.id == u.id with
  | none => exact absurd (List.find?_eq_none.1 hfirst u hu) (by simp)
  | some v =>
      rw [firstNamed, hfirst, Option.getD_some]
      exact ⟨mem_firstOfKeys_of_find? hfirst, by simpa using List.find?_some hfirst⟩

/-- The ids of the users that are written are those that the message refers to. -/
theorem mem_ids_users {id : String} : id ∈ m.users.map User.id ↔ id ∈ m.userIds :=
  mem_keys_firstOfKeys

/-- A message is read back after a failed upload if it was before. -/
theorem readBack_afterFailedSend {classifier : Classifier} {now : Instant} {error : RemoteError}
    (h : m.toRow.message = .ok m.withUserIds) (hnow : now.HasShortYear) :
    (m.afterFailedSend classifier now error).toRow.message
      = .ok (m.afterFailedSend classifier now error).withUserIds := by
  have hreadable : (TextColumn.timestamp (some now)).IsReadable := by
    intro t ht
    exact Option.some.inj ht ▸ hnow
  -- the row is read cell by cell, so each cell gives the step of the other row
  unfold Row.message at h
  obtain ⟨userId, huser, h⟩ := bind_eq_ok_iff.1 h
  obtain ⟨mentionedIds, hmentioned, h⟩ := bind_eq_ok_iff.1 h
  obtain ⟨id, hid, h⟩ := bind_eq_ok_iff.1 h
  obtain ⟨cid, hcid, h⟩ := bind_eq_ok_iff.1 h
  obtain ⟨text, htext, h⟩ := bind_eq_ok_iff.1 h
  obtain ⟨attachments, hattachments, h⟩ := bind_eq_ok_iff.1 h
  obtain ⟨createdAt, hcreated, h⟩ := bind_eq_ok_iff.1 h
  obtain ⟨createdLocallyAt, hcreatedLocally, h⟩ := bind_eq_ok_iff.1 h
  obtain ⟨updatedAt, hupdated, h⟩ := bind_eq_ok_iff.1 h
  obtain ⟨_, -, h⟩ := bind_eq_ok_iff.1 h
  obtain ⟨deletedAt, hdeleted, h⟩ := bind_eq_ok_iff.1 h
  obtain ⟨extraData, hextra, h⟩ := bind_eq_ok_iff.1 h
  obtain ⟨_, -, h⟩ := bind_eq_ok_iff.1 h
  obtain ⟨_, -, h⟩ := bind_eq_ok_iff.1 h
  obtain rfl : m.cid = cid := Except.ok.inj hcid
  have hwith : (m.afterFailedSend classifier now error).withUserIds
      = m.withUserIds.afterFailedSend classifier now error := rfl
  rw [hwith, ← Except.ok.inj h]
  unfold Row.message
  refine bind_ok huser ?_
  refine bind_ok hmentioned ?_
  refine bind_ok hid ?_
  refine bind_ok hcid ?_
  refine bind_ok htext ?_
  refine bind_ok hattachments ?_
  refine bind_ok hcreated ?_
  refine bind_ok hcreatedLocally ?_
  refine bind_ok hupdated ?_
  -- the three cells that the failure changes are read as they were written
  refine bind_ok ((Row.instant?_of_cell (t := some now) rfl "updated_locally_at").trans
    (readBack_of_readable (List.forall_mem_singleton.2 hreadable) _)) ?_
  refine bind_ok hdeleted ?_
  refine bind_ok hextra ?_
  refine bind_ok (Row.status_of_cell rfl "sync_status") ?_
  exact bind_ok (Row.text?_of_cell (s := some error.reason) rfl "sync_description") rfl

end Message

/-! ## What is written -/

theorem EntityCache.peek?_remove_of_ne {α : Type} [Keyed α] (c : EntityCache α) {j k : String}
    (h : k ≠ j) : (c.remove j).peek? k = c.peek? k := by
  refine Option.ext fun a => ⟨peek?_remove, fun ha => ?_⟩
  refine Cache.peek?_eq_some_iff.2 (List.mem_filter.2 ⟨Cache.peek?_eq_some_iff.1 ha, ?_⟩)
  rwa [bne_iff_ne]

/-- Users and message were written, the message past the cache. -/
structure WritesFailure (m failed : Message) (r r' : Replica) : Prop where
  users_eq : r'.users = r.users.putAll m.users
  channels_eq : r'.channels = r.channels
  messages_eq : r'.messages = r.messages.remove m.id
  database_eq : r'.database = (r.database.putUsers m.users).putMessages [failed]
  faults_eq : r'.faults = r.faults
  currentUser_eq : r'.currentUser = r.currentUser

theorem Replica.write_of_faulted {c : StoreCall} {change : Database → Database} {r : Replica}
    {e : StoreError} (h : r.faults c = some e) :
    Replica.write c change r = (.error e, r.noted c) := by
  simp only [Replica.write, Replica.call, h]
  rfl

namespace AttachmentSend

variable {classifier : Classifier} {now : Instant} {m : Message} {error : RemoteError} {r : Replica}

/-- The replica with the users of the message filed. -/
def filing (m : Message) (r : Replica) : Replica := { r with users := r.users.putAll m.users }

/-- The replica with the message taken out of the cache. -/
def taking (m : Message) (r : Replica) : Replica := { r with messages := r.messages.remove m.id }

/-- There is always someone to write, the author. -/
theorem insert_users (m : Message) (r : Replica) :
    Users.insert m.users r = Replica.write (.putUsers (m.users.map User.id))
      (fun db => db.putUsers m.users) (filing m r) := rfl

theorem insertMessage_uncached (m : Message) (r : Replica) :
    Messages.insertMessage m false r = Replica.write (.putMessages [m.id])
      (fun db => db.putMessages [m]) (taking m r) := rfl

theorem insert_users_of_unfaulted (h : r.faults (.putUsers (m.users.map User.id)) = none) :
    Users.insert m.users r = (.ok (), { (filing m r).noted (.putUsers (m.users.map User.id)) with
      database := r.database.putUsers m.users }) := by
  rw [insert_users]
  exact Replica.write_of_unfaulted h

theorem insertMessage_of_unfaulted (h : r.faults (.putMessages [m.id]) = none) :
    Messages.insertMessage m false r = (.ok (), { (taking m r).noted (.putMessages [m.id]) with
      database := r.database.putMessages [m] }) := by
  rw [insertMessage_uncached]
  exact Replica.write_of_unfaulted h

theorem insertMessage_of_faulted {e : StoreError} (h : r.faults (.putMessages [m.id]) = some e) :
    Messages.insertMessage m false r = (.error e, (taking m r).noted (.putMessages [m.id])) := by
  rw [insertMessage_uncached]
  exact Replica.write_of_faulted h

/-- Users and message are written if the medium allows both. -/
theorem onResult_of_unfaulted (husers : r.faults (.putUsers (m.users.map User.id)) = none)
    (hmessage : r.faults (.putMessages [m.id]) = none) :
    ∃ r', onResult classifier now m (.error error) r = (.ok (), r') ∧
      WritesFailure m (m.afterFailedSend classifier now error) r r' := by
  have hrun := bind_apply_ok (f := fun _ =>
    Messages.insertMessage (m.afterFailedSend classifier now error) false)
    (insert_users_of_unfaulted husers)
  exact ⟨_, hrun.trans (insertMessage_of_unfaulted hmessage), ⟨rfl, rfl, rfl, rfl, rfl, rfl⟩⟩

/-- Nothing is written if the medium fails the users. -/
theorem onResult_of_usersFault {e : StoreError}
    (husers : r.faults (.putUsers (m.users.map User.id)) = some e) :
    ∃ r', onResult classifier now m (.error error) r = (.error e, r') ∧
      r'.database = r.database := by
  have hfirst : Users.insert m.users r
      = (.error e, (filing m r).noted (.putUsers (m.users.map User.id))) := by
    rw [insert_users]
    exact Replica.write_of_faulted husers
  exact ⟨_, bind_apply_error hfirst, rfl⟩

/-- Only users are written if the medium fails the message. -/
theorem onResult_of_messageFault {e : StoreError}
    (husers : r.faults (.putUsers (m.users.map User.id)) = none)
    (hmessage : r.faults (.putMessages [m.id]) = some e) :
    ∃ r', onResult classifier now m (.error error) r = (.error e, r') ∧
      r'.database = r.database.putUsers m.users := by
  have hrun := bind_apply_ok (f := fun _ =>
    Messages.insertMessage (m.afterFailedSend classifier now error) false)
    (insert_users_of_unfaulted husers)
  exact ⟨_, hrun.trans (insertMessage_of_faulted hmessage), rfl⟩

end AttachmentSend

/-! ## What is found afterwards -/

namespace WritesFailure

variable {m failed : Message} {r r' : Replica} {u : User}

theorem users_rows (h : WritesFailure m failed r r') : r'.database.users
    = r.database.users.putAll (m.users.map fun u => (⟨u, none⟩ : UserRecord).toRow) := by
  rw [h.database_eq]
  show r.database.users.putAll ((m.users.map fun u => (⟨u, none⟩ : UserRecord)).map _) = _
  rw [List.map_map]
  rfl

theorem messages_rows (h : WritesFailure m failed r r') :
    r'.database.messages = r.database.messages.put failed.toRow := by
  rw [h.database_eq]
  rfl

/-- Each user that was written has its row. -/
theorem get?_user (h : WritesFailure m failed r r') (hu : u ∈ m.users) :
    r'.database.users.get? u.id = some (⟨u, none⟩ : UserRecord).toRow := by
  rw [h.users_rows]
  refine Table.get?_putAll_of_mem _ ?_ (List.mem_map_of_mem hu)
  rw [List.map_map]
  exact nodup_keys_firstOfKeys _

/-- The row of an id to which the message refers is that of the first user with the id. -/
theorem get?_firstNamed (h : WritesFailure m failed r r') (hu : u ∈ m.user :: m.mentionedUsers) :
    r'.database.users.get? u.id = some (⟨m.firstNamed u, none⟩ : UserRecord).toRow := by
  obtain ⟨hmem, hid⟩ := Message.firstNamed_spec hu
  rw [← hid]
  exact h.get?_user hmem

/-- So is the snapshot, if there is one. -/
theorem eq_firstNamed_of_cached (h : WritesFailure m failed r r')
    (hu : u ∈ m.user :: m.mentionedUsers) {v : User} (hv : r'.users.peek? u.id = some v) :
    v = m.firstNamed u := by
  obtain ⟨hmem, hid⟩ := Message.firstNamed_spec hu
  rw [h.users_eq] at hv
  have hlast : lastOfKey m.users u.id = some (m.firstNamed u) :=
    hid ▸ lastOfKey_of_nodup (nodup_keys_firstOfKeys _) hmem
  have hcached := EntityCache.peek?_putAll hv
  rw [hlast] at hcached
  exact (Option.some.inj hcached).symm

/-- Other users keep their rows, and their snapshots unless the cache gives them up. -/
theorem other_user (h : WritesFailure m failed r r') {id : String} (hid : id ∉ m.userIds) :
    r'.database.users.get? id = r.database.users.get? id ∧
      ∀ v, r'.users.peek? id = some v → r.users.peek? id = some v := by
  rw [← Message.mem_ids_users] at hid
  constructor
  · rw [h.users_rows]
    refine Table.get?_putAll_of_not_mem _ ?_
    rw [List.map_map]
    exact hid
  · intro v hv
    rw [h.users_eq] at hv
    have hcached := EntityCache.peek?_putAll hv
    rwa [lastOfKey_eq_none_iff.2 hid, Option.none_or] at hcached

section

variable (h : WritesFailure m failed r r') (hread : m.IsReadBack)
include h hread

theorem userRecord?_firstNamed (hu : u ∈ m.user :: m.mentionedUsers) :
    r'.database.userRecord? u.id = .ok (some ⟨m.firstNamed u, none⟩) := by
  rw [Database.userRecord?, Database.readOne, h.get?_firstNamed hu]
  dsimp only
  rw [hread.users _ (Message.firstNamed_spec hu).1]
  rfl

/-- Whoever the replica puts into a message for an id is the one that is shown. -/
theorem userFor_eq (hu : u ∈ m.user :: m.mentionedUsers) :
    r'.userFor u.id = m.shownUser r.currentUser u := by
  have hstored : r'.storedUser? u.id = some (m.firstNamed u) := by
    rw [Replica.storedUser?, h.get?_firstNamed hu, Option.bind_some,
      hread.users _ (Message.firstNamed_spec hu).1]
    rfl
  unfold Replica.userFor Replica.knownUser? Message.shownUser
  rw [h.currentUser_eq]
  cases hme : r.currentUser.filter fun v => v.id == u.id with
  | some me => rfl
  | none =>
      rw [Option.none_or, hstored]
      cases hcached : r'.users.peek? u.id with
      | none => rfl
      | some v => exact h.eq_firstNamed_of_cached hu hcached

/-- The users that are not cached can be read. -/
theorem canComplete (hids : failed.userIds = m.userIds)
    (hreads : ∀ ids, r.faults (.users ids) = none) : r'.CanComplete [failed.withUserIds] := by
  have hrow : ∀ row ∈ r'.database.users.rows, key row ∈ m.userIds →
      ∃ record, row.userRecord = .ok record := by
    intro row hrow hkey
    obtain ⟨u, hu, hid⟩ : ∃ u ∈ m.user :: m.mentionedUsers, u.id = key row := List.mem_map.1 hkey
    have hget := Table.get?_of_mem hrow
    rw [← hid, h.get?_firstNamed hu] at hget
    obtain rfl := Option.some.inj hget
    exact ⟨_, hread.users _ (Message.firstNamed_spec hu).1⟩
  have hmissed : ∀ id ∈ r'.missedUsers [failed.withUserIds], id ∈ m.userIds := by
    intro id hid
    have hnamed := (Users.mem_misses.1 hid).1
    rwa [List.flatMap_singleton, Replica.userIds_withUserIds, hids] at hnamed
  obtain ⟨records, hrecords⟩ : ∃ records, Database.readMany Row.userRecord r'.database.users
      (r'.missedUsers [failed.withUserIds]) = .ok records :=
    Database.exists_readRows fun row hmem => by
      obtain ⟨hstored, hkey⟩ := Database.mem_flatMap_among.1 hmem
      exact hrow row hstored (hmissed _ hkey)
  refine ⟨_, congrArg (Except.map (List.map UserRecord.user)) hrecords, fun _ => ?_⟩
  rw [h.faults_eq]
  exact hreads _

end

/-- **What was written is recorded.** -/
theorem recordsFailure (h : WritesFailure m failed r r') (hread : m.IsReadBack)
    (hfailed : failed.toRow.message = .ok failed.withUserIds) (hid : failed.id = m.id)
    (huser : failed.user = m.user) (hmentioned : failed.mentionedUsers = m.mentionedUsers) :
    RecordsFailure m failed r r' := by
  have hcached : r'.messages.peek? m.id = none := by
    rw [h.messages_eq]
    exact EntityCache.peek?_remove_self _ _
  have hmessage : r'.database.message? m.id = .ok (some failed.withUserIds) := by
    have hrow : r'.database.messages.get? m.id = some failed.toRow := by
      rw [h.messages_rows, ← hid]
      exact Table.get?_put_self _ failed.toRow
    rw [Database.message?, Database.readOne, hrow]
    dsimp only
    rw [hfailed]
    rfl
  refine ⟨hmessage, hcached, fun u hu => h.userRecord?_firstNamed hread hu, fun id => h.other_user,
    ⟨?_, h.channels_eq⟩, fun id hne => ⟨?_, ?_⟩, fun hfault hreads => ?_⟩
  · rw [h.database_eq]
    rfl
  · rw [h.messages_rows]
    refine Table.get?_put_of_ne _ fun hkey => hne ?_
    exact (hid.symm.trans hkey).symm
  · rw [h.messages_eq]
    exact EntityCache.peek?_remove_of_ne _ hne
  · have hids : failed.userIds = m.userIds := by
      rw [Message.userIds, huser, hmentioned]
      rfl
    obtain ⟨r'', hselect⟩ := Messages.select_of_canComplete hcached (h.faults_eq ▸ hfault) hmessage
      (h.canComplete hread hids hreads)
    rw [hselect, Option.map_some, r'.completed_withUserIds, huser, hmentioned,
      h.userFor_eq hread List.mem_cons_self]
    have hall : m.mentionedUsers.map (fun u => r'.userFor u.id)
        = m.mentionedUsers.map (m.shownUser r.currentUser) :=
      List.map_congr_left fun u hu => h.userFor_eq hread (List.mem_cons_of_mem _ hu)
    rw [hall]

end WritesFailure

namespace AttachmentSend

/-- **The failure of an upload is recorded as a whole, or the row of the message stays as it was.**
In every state: after a success nothing is done. After a failure, if the medium fails a write, its
error is returned and no message has changed; and otherwise, for a message that is read back with
its users and a year of four digits, the message is stored with the status that the classifier
decides on, the reason and the time, and all else is as `RecordsFailure` says. -/
theorem failure_recorded (classifier : Classifier) (now : Instant) (m : Message) (r : Replica) :
    (∀ sent, onResult classifier now m (.ok sent) r = (.ok (), r)) ∧
    ∀ error : RemoteError,
      (∀ e, r.faults (.putUsers (m.users.map User.id)) = some e →
        ∃ r', onResult classifier now m (.error error) r = (.error e, r') ∧
          r'.database = r.database) ∧
      (∀ e, r.faults (.putUsers (m.users.map User.id)) = none →
        r.faults (.putMessages [m.id]) = some e →
        ∃ r', onResult classifier now m (.error error) r = (.error e, r') ∧
          r'.database.messages = r.database.messages) ∧
      (m.IsReadBack → now.HasShortYear →
        r.faults (.putUsers (m.users.map User.id)) = none →
        r.faults (.putMessages [m.id]) = none →
        ∃ r', onResult classifier now m (.error error) r = (.ok (), r') ∧
          RecordsFailure m { m with
            syncStatus := if classifier error m.cid then .failedPermanently else .syncNeeded
            syncDescription := some error.reason
            updatedLocallyAt := some now } r r') := by
  refine ⟨fun _ => rfl, fun error => ⟨fun e husers => onResult_of_usersFault husers,
    fun e husers hmessage => ?_, fun hread hnow husers hmessage => ?_⟩⟩
  · obtain ⟨r', hrun, hdatabase⟩ := onResult_of_messageFault husers hmessage
    refine ⟨r', hrun, ?_⟩
    rw [hdatabase]
    rfl
  · obtain ⟨r', hrun, hwrites⟩ := onResult_of_unfaulted husers hmessage
    refine ⟨r', hrun, hwrites.recordsFailure hread ?_ rfl rfl rfl⟩
    exact Message.readBack_afterFailedSend hread.message hnow

/-- A user with a name. -/
def named (id name : String) : User := { User.new id with name := some name }

/-- A message that mentions one user twice, by two names, and the current user. -/
def mentionsTwice : Message :=
  { (default : Message) with
    id := "m1", cid := "team:a", user := named "u1" "Ada"
    mentionedUsers := [named "u2" "Ben", .new "u3", named "u2" "Benjamin"] }

/-- The first of the two is stored and shown, and the current user is shown as such. -/
theorem failure_recorded_mentionsTwice : ∃ r',
    onResult .standard Database.leapSecond mentionsTwice (.error .timeout)
        (.new (.create none) (some (named "u3" "Cy")) 1 1 1) = (.ok (), r') ∧
      r'.database.userRecord? "u2" = .ok (some ⟨named "u2" "Ben", none⟩) ∧
      (Messages.select "m1" r').1 = .ok (some { mentionsTwice with
        syncStatus := .syncNeeded, syncDescription := some RemoteError.timeout.reason
        updatedLocallyAt := some Database.leapSecond
        mentionedUsers := [named "u2" "Ben", named "u3" "Cy", named "u2" "Ben"] }) := by
  have hread : mentionsTwice.IsReadBack := by
    refine ⟨rfl, List.forall_mem_cons.2 ⟨rfl, List.forall_mem_cons.2 ⟨rfl, ?_⟩⟩⟩
    exact List.forall_mem_singleton.2 rfl
  obtain ⟨-, hfailure⟩ := failure_recorded .standard Database.leapSecond mentionsTwice
    (.new (.create none) (some (named "u3" "Cy")) 1 1 1)
  obtain ⟨-, -, hrecorded⟩ := hfailure .timeout
  obtain ⟨r', hrun, h⟩ := hrecorded hread (by decide) rfl rfl
  exact ⟨r', hrun, h.users (named "u2" "Ben") (by simp [mentionsTwice]), h.select rfl fun _ => rfl⟩

end AttachmentSend

end OfflineChat
