import OfflineChat.Proofs.Repository.Lawful

/-! # The session user

The session user has a row of its own under a fixed id, which keeps the real id beside it. Other
users are filed under their own ids in the same table, and one that happens to have the fixed id
takes that row. Main definitions: `Operation.sessionUser?`, what an operation makes of the session
user, and `Operation.givenUser?`, what it is told to make of it. Main statement: the session user is
what the last operation has left that made anything of it, and that is what was given unless a user
of the fixed id was filed (`Replica.selectMe_after`). -/

set_option autoImplicit false

namespace OfflineChat

/-- The user that a record stands for, with the real id if one is kept. -/
def UserRecord.named (r : UserRecord) : User := { r.user with id := r.realId.getD r.user.id }

/-- The session user, as the database holds it. -/
def Database.sessionUser (db : Database) : Except StoreError (Option User) :=
  (db.userRecord? sessionUserId).map (Option.map UserRecord.named)

namespace Operation

/-- The users that an operation files under their own ids, in the order of their writing. -/
def filedUsers : Operation → List User
  | insertUsers users => users
  | sendResult _ _ message (.error _) => message.users
  | _ => []

/-- The records of users that an operation writes. -/
def userRecords : Operation → List UserRecord
  | insertMe user => [⟨{ user with id := sessionUserId }, some user.id⟩]
  | op => op.filedUsers.map fun u => ⟨u, none⟩

/-- All users that an operation writes are read back. -/
def BringsReadableUsers : Operation → Prop
  | insertMe user => user.IsReadable
  | op => ∀ u ∈ op.filedUsers, u.IsReadable

/-- What an operation makes of the session user, if anything: another one, or none. -/
def sessionUser? : Operation → Option (Option User)
  | insertMe user => some (some user)
  | clearUsers => some none
  | op => (lastOfKey op.filedUsers sessionUserId).map some

/-- What an operation is told to make of the session user, if anything. -/
def givenUser? : Operation → Option (Option User)
  | insertMe user => some (some user)
  | clearUsers => some none
  | _ => none

/-! ## One operation -/

/-- **What an operation does to the users**, if it does not remove them and no store call fails. -/
theorem users_apply {op : Operation} (h : op ≠ .clearUsers) {r : Replica} (hf : r.IsFaultless) :
    (op.apply r).database.users
      = r.database.users.putAll (op.userRecords.map UserRecord.toRow) := by
  cases op with
  | clearUsers => exact absurd rfl h
  | insertUsers users =>
      rw [apply, Users.database_insert, hf]
      rfl
  | insertMe user =>
      rw [apply, Users.insertMe, Replica.database_write, hf]
      rfl
  | insertChannels channels => exact (Channels.insert_spares channels r).1.rows_eq
  | updateLastMessage cid message =>
      exact (Channels.updateLastMessage_spares cid message r).1.rows_eq
  | clearChannels => exact (Channels.clear_spares r).1.rows_eq
  | insertMessages messages cached => exact (Messages.insert_spares messages cached r).1.rows_eq
  | clearMessages => exact (Messages.clear_spares r).1.rows_eq
  | clearCaches => rfl
  | sendRequest message =>
      have hmessage := (Messages.insert_spares [message] true r).1
      rw [apply, AttachmentSend.snd_onRequest]
      split
      · exact (hmessage.trans (Channels.updateLastMessage_spares _ _ _).1).rows_eq
      · exact hmessage.rows_eq
  | sendResult classifier now message result =>
      cases result with
      | ok sent => rfl
      | error error =>
          -- the users are written first, and the message then leaves them alone
          let failed := message.afterFailedSend classifier now error
          have hmessage := (Messages.insert_spares [failed] false
            (Users.insert failed.users r).2).1.rows_eq
          have husers := Users.database_insert failed.users r
          rw [hf] at husers
          rw [apply, AttachmentSend.snd_onResult_error, hf]
          exact hmessage.trans (congrArg Database.users husers)
  | _ => exact congrArg Database.users (onlyRead_apply rfl r).database_eq

theorem isReadable_of_mem_userRecords {op : Operation} (hop : op.BringsReadableUsers)
    {record : UserRecord} (h : record ∈ op.userRecords) : record.user.IsReadable := by
  cases op with
  | insertMe user =>
      rw [List.mem_singleton.1 h]
      exact hop
  | _ =>
      obtain ⟨u, hu, rfl⟩ := List.mem_map.1 h
      exact hop u hu

/-- The last record that is written under the fixed id names the session user from then on. -/
theorem named_lastOfKey {op : Operation} (h : op ≠ .clearUsers) :
    (lastOfKey op.userRecords sessionUserId).map (fun record => some record.named)
      = op.sessionUser? := by
  have hfiled : ∀ users : List User,
      (lastOfKey (users.map fun u => (⟨u, none⟩ : UserRecord)) sessionUserId).map
        (fun record => some record.named) = (lastOfKey users sessionUserId).map some := by
    intro users
    rw [lastOfKey_map (f := fun u => (⟨u, none⟩ : UserRecord)) fun _ => rfl, Option.map_map]
    rfl
  cases op with
  | clearUsers => exact absurd rfl h
  | insertMe user => rfl
  | _ => exact hfiled _

/-- **What an operation makes of the session user** in the database, if no store call fails. -/
theorem sessionUser_apply {op : Operation} (hop : op.BringsReadableUsers) {r : Replica}
    (hf : r.IsFaultless) :
    (op.apply r).database.sessionUser
      = op.sessionUser?.elim r.database.sessionUser .ok := by
  by_cases hclear : op = .clearUsers
  · rw [hclear, apply, Users.database_clear, hf]
    rfl
  · rw [← named_lastOfKey hclear]
    unfold Database.sessionUser Database.userRecord? Database.readOne
    rw [users_apply hclear hf, Table.get?_putAll_last, lastOfKey_map key_toRow_userRecord]
    cases hlast : lastOfKey op.userRecords sessionUserId with
    | none => rfl
    | some record =>
        have hreadable := isReadable_of_mem_userRecords hop (mem_of_lastOfKey hlast)
        have hread : record.toRow.userRecord = .ok record := User.readBack_eq hreadable
        simp only [Option.map_some, Option.some_or, hread, Option.elim_some]
        rfl

/-- An operation that files nobody under the fixed id does to the session user what it is told. -/
theorem sessionUser?_eq_givenUser? {op : Operation}
    (h : ∀ u ∈ op.filedUsers, u.id ≠ sessionUserId) : op.sessionUser? = op.givenUser? := by
  have hnone : lastOfKey op.filedUsers sessionUserId = none := by
    refine lastOfKey_eq_none_iff.2 fun hmem => ?_
    obtain ⟨u, hu, hid⟩ := List.mem_map.1 hmem
    exact h u hu hid
  cases op with
  | insertMe user => rfl
  | clearUsers => rfl
  | _ => exact congrArg (Option.map some) hnone

end Operation

/-! ## Runs -/

namespace Replica

/-- The session user is looked up in the database. -/
theorem fst_selectMe {r : Replica} (hf : r.IsFaultless) :
    (Users.selectMe r).1 = r.database.sessionUser := by
  unfold Users.selectMe Database.sessionUser
  cases hread : r.database.userRecord? sessionUserId with
  | error e =>
      have hfails : Replica.read (.userRecord sessionUserId)
          (fun db => db.userRecord? sessionUserId) r
            = (.error e, r.noted (.userRecord sessionUserId)) := by
        unfold Replica.read Replica.call
        simp only [hf _, hread]
        rfl
      exact congrArg Prod.fst (Action.bind_apply_error hfails)
  | ok record =>
      have hok : Replica.read (.userRecord sessionUserId)
          (fun db => db.userRecord? sessionUserId) r
            = (.ok record, r.noted (.userRecord sessionUserId)) :=
        Replica.read_of_unfaulted (hf _) hread
      exact congrArg Prod.fst (Action.bind_apply_ok hok)

/-- The session user after a run, if each operation makes of it what `makes` says. -/
def lastMade (makes : Operation → Option (Option User)) (before : Option User)
    (calls : List OperationCall) : Option User :=
  ((calls.map OperationCall.operation).filterMap makes).getLast?.getD before

theorem lastMade_cons (makes : Operation → Option (Option User)) (before : Option User)
    (call : OperationCall) (calls : List OperationCall) :
    lastMade makes before (call :: calls)
      = lastMade makes ((makes call.operation).getD before) calls := by
  unfold lastMade
  rw [List.map_cons]
  cases hmade : makes call.operation with
  | none => rw [List.filterMap_cons_none hmade, Option.getD_none]
  | some user =>
      rw [List.filterMap_cons_some hmade, List.getLast?_cons, Option.getD_some, Option.getD_some]

/-- After a run the database holds what the last operation has left that made anything of the
session user. -/
theorem sessionUser_after {r : Replica} {before : Option User}
    (hbefore : r.database.sessionUser = .ok before) {calls : List OperationCall}
    (hreliable : ∀ call ∈ calls, ∀ c, call.faults c = none)
    (hreadable : ∀ call ∈ calls, call.operation.BringsReadableUsers) :
    (r.after calls).database.sessionUser = .ok (lastMade Operation.sessionUser? before calls) := by
  induction calls generalizing r before with
  | nil => exact hbefore
  | cons call calls ih =>
      obtain ⟨hfaults, hreliable⟩ := List.forall_mem_cons.1 hreliable
      obtain ⟨husers, hreadable⟩ := List.forall_mem_cons.1 hreadable
      have hcall := Operation.sessionUser_apply husers (r := r.withFaults call.faults) hfaults
      have hnext : (call.operation.apply (r.withFaults call.faults)).database.sessionUser
          = .ok (call.operation.sessionUser?.getD before) := by
        rw [hcall]
        cases call.operation.sessionUser? with
        | none => exact hbefore
        | some user => rfl
      rw [after_cons, ih hnext hreliable hreadable, lastMade_cons]

/-- **The session user is what the last operation has left that made anything of it**, whatever else
happens in a run in which no store call fails and all users are read back. If no operation files a
user under the fixed id, that is the user that was given last since the users were cleared. -/
theorem selectMe_after {r : Replica} {before : Option User} (hfaultless : r.IsFaultless)
    (hbefore : (Users.selectMe r).1 = .ok before) {calls : List OperationCall}
    (hreliable : ∀ call ∈ calls, ∀ c, call.faults c = none)
    (hreadable : ∀ call ∈ calls, call.operation.BringsReadableUsers) :
    (Users.selectMe (r.after calls).recovered).1
        = .ok (lastMade Operation.sessionUser? before calls) ∧
      ((∀ call ∈ calls, ∀ u ∈ call.operation.filedUsers, u.id ≠ sessionUserId) →
        (Users.selectMe (r.after calls).recovered).1
          = .ok (lastMade Operation.givenUser? before calls)) := by
  have hanswer : (Users.selectMe (r.after calls).recovered).1
      = .ok (lastMade Operation.sessionUser? before calls) := by
    rw [fst_selectMe hfaultless] at hbefore
    rw [fst_selectMe (isFaultless_recovered _)]
    exact sessionUser_after hbefore hreliable hreadable
  refine ⟨hanswer, fun hspares => ?_⟩
  have hsame : lastMade Operation.sessionUser? before calls
      = lastMade Operation.givenUser? before calls := by
    unfold lastMade
    congr 2
    refine List.filterMap_congr fun op hop => ?_
    obtain ⟨call, hcall, rfl⟩ := List.mem_map.1 hop
    exact Operation.sessionUser?_eq_givenUser? (hspares call hcall)
  rw [hanswer, hsame]

/-- A replica of a new database. -/
def unused : Replica := .new (.create none) none 1 1 1

/-- The session user is given, and then another user is filed. -/
def aliceThen (id : String) : List OperationCall :=
  [⟨.insertMe (.new "alice"), fun _ => none⟩, ⟨.insertUsers [.new id], fun _ => none⟩]

/-- The session user stays when another one is filed, and has the real id. -/
theorem selectMe_after_bob :
    (Users.selectMe (unused.after (aliceThen "bob")).recovered).1
      = .ok (some (.new "alice")) := by
  have hreliable : ∀ call ∈ aliceThen "bob", ∀ c, call.faults c = none :=
    List.forall_mem_cons.2 ⟨fun _ => rfl, List.forall_mem_singleton.2 fun _ => rfl⟩
  have hreadable : ∀ call ∈ aliceThen "bob", call.operation.BringsReadableUsers := by
    refine List.forall_mem_cons.2 ⟨User.isReadable_new "alice", List.forall_mem_singleton.2 ?_⟩
    exact List.forall_mem_singleton.2 (User.isReadable_new "bob")
  have hspares : ∀ call ∈ aliceThen "bob",
      ∀ u ∈ call.operation.filedUsers, u.id ≠ sessionUserId := by
    refine List.forall_mem_cons.2 ⟨fun u hu => absurd hu List.not_mem_nil, ?_⟩
    exact List.forall_mem_singleton.2 (List.forall_mem_singleton.2 (by decide))
  exact (selectMe_after (fun _ => rfl) rfl hreliable hreadable).2 hspares

/-- A user who happens to have the fixed id takes the place of the session user. -/
theorem session_user_replaced :
    ∃ found, (Users.selectMe (unused.after (aliceThen "me")).recovered).1 = .ok (some found) ∧
      found.id = "me" ∧ found ≠ .new "alice" := by
  refine ⟨.new "me", rfl, rfl, fun h => ?_⟩
  exact absurd (congrArg User.id h) (by decide)

end Replica

end OfflineChat
