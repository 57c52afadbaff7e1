import Mathlib.Data.List.Forall2
import OfflineChat.Proofs.Repository.LookUps
import OfflineChat.Proofs.Repository.MessageSnapshots
import OfflineChat.Proofs.Store.Rewriting

/-! # How reads of messages are completed

A message that is read from the database names its users by their ids, and is given with a user for
each of them. Main definitions: `Replica.Resolves`, the user that an id stands for, in the order of
the four places where it may come from; `Replica.Completes`, one message that is given for a stored
one; and `Replica.CompletesReads`, all reads of messages. Main statement: in every state each read
gives all stored messages that it finds, in their order, with all users resolved and nothing else
changed (`Replica.completesReads`). -/

set_option autoImplicit false

namespace OfflineChat

open OfflineChat.Action

/-- A message that is not cached is the stored one, completed. -/
theorem Messages.select_of_canComplete {r : Replica} {id : String} {stored : Option Message}
    (hcached : r.messages.peek? id = none) (hfault : r.faults (.message id) = none)
    (hstored : r.database.message? id = .ok stored) (h : r.CanComplete stored.toList) :
    ∃ r', Messages.select id r = (.ok (stored.map r.completed), r') := by
  let touched : Replica := { r with messages := r.messages.touch id }
  have hread : Replica.read (.message id) (fun db => db.message? id) touched
      = (.ok stored, touched.noted (.message id)) := Replica.read_of_unfaulted hfault hstored
  obtain ⟨r', hhydrate, -⟩ := Messages.hydrate_of_canComplete (r := touched.noted (.message id)) h
  have halike : r.Alike (touched.noted (.message id)) := ⟨rfl, rfl, rfl, rfl⟩
  rw [halike.completed_eq] at hhydrate
  refine ⟨r', ?_⟩
  unfold Messages.select
  rw [bind_apply, update_apply]
  simp only [EntityCache.get?, hcached]
  rw [bind_apply_ok hread, bind_apply_ok hhydrate]
  cases stored <;> rfl

namespace Replica

/-! ## What is put into a message -/

/-- The user that an id stands for: the current user if it is theirs, else the cached one, else the
stored one, else one of whom nothing but the id is known. -/
inductive Resolves (r : Replica) (id : String) : User → Prop
  | current {me : User} (hme : r.currentUser = some me) (hid : me.id = id) : Resolves r id me
  | cached {user : User} (hother : ∀ me ∈ r.currentUser, me.id ≠ id)
      (hcached : r.users.peek? id = some user) : Resolves r id user
  | stored {record : UserRecord} (hother : ∀ me ∈ r.currentUser, me.id ≠ id)
      (huncached : r.users.peek? id = none)
      (hstored : r.database.userRecord? id = .ok (some record)) : Resolves r id record.user
  | unknown (hother : ∀ me ∈ r.currentUser, me.id ≠ id) (huncached : r.users.peek? id = none)
      (hunstored : r.database.userRecord? id = .ok none) : Resolves r id (.new id)

/-- A stored message is given with the users that its ids stand for, and as it is otherwise. -/
structure Completes (r : Replica) (stored given : Message) : Prop where
  author : r.Resolves stored.user.id given.user
  mentioned : List.Forall₂ (fun bare user => r.Resolves bare.id user) stored.mentionedUsers
    given.mentionedUsers
  userIds_eq : given.userIds = stored.userIds
  others : given
    = { stored with user := given.user, mentionedUsers := given.mentionedUsers }

/-- A read that found these messages in the database gives them completed, one for one, and changes
nothing but recency. -/
structure GivesCompleted (r : Replica) (stored given : List Message) (r' : Replica) : Prop where
  completes : List.Forall₂ r.Completes stored given
  onlyRead : r.OnlyRead r'

/-- Messages that are read from the database are given completed, whichever way they are read. -/
structure CompletesReads (r : Replica) : Prop where
  /-- A message that is not cached. -/
  select : ∀ id stored, r.messages.peek? id = none → r.faults (.message id) = none →
    r.database.message? id = .ok stored → r.CanComplete stored.toList →
    ∃ given r', Messages.select id r = (.ok given, r') ∧
      r.GivesCompleted stored.toList given.toList r'
  /-- The messages among many that are not cached; they come after those that are. -/
  selectMany : ∀ ids stored,
    r.Gives .messages Database.messagesOf (r.messages.misses ids) stored → r.CanComplete stored →
    ∃ given r', Messages.selectMany ids r
        = (.ok ((firstOfKeys ids).filterMap r.messages.peek? ++ given), r') ∧
      r.GivesCompleted stored given r'
  /-- The messages of a channel. -/
  forChannel : ∀ cid limit stored, r.faults (.messagesForChannel cid limit) = none →
    r.database.messagesForChannel cid limit = .ok stored → r.CanComplete stored →
    ∃ given r', Messages.forChannel cid limit r = (.ok given, r') ∧
      r.GivesCompleted stored given r'
  /-- The messages of a status, from the first one or above an id. -/
  byStatus : ∀ status after limit stored,
    r.faults (.messagesByStatus status after limit) = none →
    r.database.messagesByStatus status after limit = .ok stored → r.CanComplete stored →
    ∃ given r', Messages.byStatus status after limit r = (.ok given, r') ∧
      r.GivesCompleted stored given r'

/-! ## One user -/

variable {r r' : Replica} {messages : List Message}

/-- A row among those that were read is one that can be read. -/
theorem exists_of_usersOf {db : Database} {ids : List String} {users : List User}
    (h : db.usersOf ids = .ok users) {row : Row} (hrow : row ∈ db.users.rows)
    (hid : key row ∈ ids) : ∃ record, row.userRecord = .ok record := by
  obtain ⟨records, hrecords, -⟩ := map_eq_ok_iff.1 h
  have hmem : row.userRecord ∈ (records.map .ok : List (Except StoreError UserRecord)) := by
    rw [← Database.readRows_eq_ok_iff.1 hrecords]
    exact List.mem_map_of_mem (Database.mem_flatMap_among.2 ⟨hrow, hid⟩)
  obtain ⟨record, -, hrecord⟩ := List.mem_map.1 hmem
  exact ⟨record, hrecord.symm⟩

/-- A user that is neither the current one nor cached is the stored one, or unknown. -/
theorem resolves_of_uncached {ids : List String} {users : List User}
    (h : r.database.usersOf ids = .ok users) {id : String} (hid : id ∈ ids)
    (hother : ∀ me ∈ r.currentUser, me.id ≠ id) (huncached : r.users.peek? id = none) :
    r.Resolves id ((r.storedUser? id).getD (.new id)) := by
  unfold storedUser?
  cases hrow : r.database.users.get? id with
  | none =>
      refine .unknown hother huncached ?_
      rw [Database.userRecord?, Database.readOne, hrow]
  | some row =>
      obtain ⟨record, hrecord⟩ := exists_of_usersOf h (Table.mem_of_get? hrow)
        (Table.key_of_get? hrow ▸ hid)
      rw [Option.bind_some, hrecord]
      refine .stored hother huncached ?_
      rw [Database.userRecord?, Database.readOne, hrow]
      simp only [hrecord]
      rfl

/-- **The user that is put into a message for an id is the one that the id stands for.** -/
theorem resolves_userFor (h : r.CanComplete messages) {id : String}
    (hid : id ∈ messages.flatMap Message.userIds) : r.Resolves id (r.userFor id) := by
  obtain ⟨users, husers, -⟩ := h
  by_cases hme : ∃ me ∈ r.currentUser, me.id = id
  · obtain ⟨me, hcurrent, rfl⟩ := hme
    have hknown : r.userFor me.id = me := by
      simp [userFor, knownUser?, Option.mem_def.1 hcurrent, Option.filter]
    rw [hknown]
    exact .current hcurrent rfl
  · have hother : ∀ me ∈ r.currentUser, me.id ≠ id := fun me hcurrent he => hme ⟨me, hcurrent, he⟩
    have hnone : (r.currentUser.filter fun u => u.id == id) = none :=
      Option.filter_eq_none_iff.2 fun me hcurrent => by simpa using hother me hcurrent
    unfold userFor knownUser?
    rw [hnone, Option.none_or]
    cases hcached : r.users.peek? id with
    | some user => exact .cached hother hcached
    | none =>
        rw [Option.none_or]
        exact resolves_of_uncached husers (Users.mem_misses.2 ⟨hid, hcached⟩) hother hcached

/-! ## One message -/

theorem userIds_withUserIds (m : Message) : m.withUserIds.userIds = m.userIds := by
  simp only [Message.userIds, Message.withUserIds, List.map_map]
  rfl

/-- A stored message is given with its users. -/
theorem completes_completed (h : r.CanComplete messages) {m : Message} (hm : m ∈ messages)
    (hbare : m.withUserIds = m) : r.Completes m (r.completed m) := by
  have hids : ∀ id ∈ m.userIds, r.Resolves id (r.userFor id) := fun id hid =>
    resolves_userFor h (List.mem_flatMap.2 ⟨m, hm, hid⟩)
  have hcompleted : r.completed m = { m with
      user := r.userFor m.user.id
      mentionedUsers := m.mentionedUsers.map fun u => r.userFor u.id } := by
    rw [← completed_withUserIds, hbare]
  rw [hcompleted]
  refine ⟨hids _ List.mem_cons_self, ?_, ?_, rfl⟩
  · rw [List.forall₂_map_right_iff, List.forall₂_same]
    exact fun u hu => hids u.id (List.mem_cons_of_mem _ (List.mem_map_of_mem hu))
  · rw [← hcompleted, ← userIds_withUserIds, r.withUserIds_completed, userIds_withUserIds]

/-- Messages that were read from rows are given completed. -/
theorem givesCompleted_of_rows (h : r.CanComplete messages)
    (hrows : ∀ m ∈ messages, ∃ row : Row, row.message = .ok m) (hread : r.OnlyRead r') :
    r.GivesCompleted messages (messages.map r.completed) r' where
  completes := by
    rw [List.forall₂_map_right_iff, List.forall₂_same]
    intro m hm
    obtain ⟨row, hrow⟩ := hrows m hm
    exact completes_completed h hm (Row.withUserIds_of_message hrow)
  onlyRead := hread

/-! ## All reads -/

/-- A read of messages that is nothing but completed. -/
theorem givesCompleted_of_read {c : StoreCall} {answer : Database → Except StoreError (List Message)}
    (hfault : r.faults c = none) (hanswer : answer r.database = .ok messages)
    (hrows : ∀ m ∈ messages, ∃ row : Row, row.message = .ok m) (h : r.CanComplete messages) :
    ∃ given r', (Replica.read c answer >>= Messages.hydrate) r = (.ok given, r') ∧
      r.GivesCompleted messages given r' := by
  have hread : Replica.read c answer r = (.ok messages, r.noted c) :=
    read_of_unfaulted hfault hanswer
  obtain ⟨r', hhydrate, -⟩ := Messages.hydrate_of_canComplete (r := r.noted c) h
  have honly := (reads_read c answer).bind Messages.reads_hydrate r
  rw [bind_apply_ok hread, hhydrate] at honly ⊢
  rw [(r.alike_noted c).completed_eq]
  exact ⟨_, r', rfl, givesCompleted_of_rows h hrows honly⟩

/-- **All reads of messages complete them**: in every state, and whatever is found in the
database. -/
theorem completesReads (r : Replica) : r.CompletesReads where
  select id stored hcached hfault hstored h := by
    obtain ⟨r', hselect⟩ := Messages.select_of_canComplete hcached hfault hstored h
    have honly := Messages.reads_select id r
    rw [hselect] at honly
    have hlist : (stored.map r.completed).toList = stored.toList.map r.completed := by
      cases stored <;> rfl
    refine ⟨_, r', hselect, hlist ▸ givesCompleted_of_rows h (fun m hm => ?_) honly⟩
    obtain rfl := Option.mem_toList.1 hm
    obtain ⟨row, -, hrow⟩ := Database.exists_row_of_readOne hstored
    exact ⟨row, hrow⟩
  selectMany ids stored hgives h := by
    obtain ⟨r', hselect, -⟩ := Messages.selectMany_of_gives hgives h
    have honly := Messages.reads_selectMany ids r
    rw [hselect] at honly
    refine ⟨_, r', hselect, givesCompleted_of_rows h (fun m hm => ?_) honly⟩
    obtain ⟨row, -, -, hrow⟩ := (Database.mem_of_readMany hgives.1).1 hm
    exact ⟨row, hrow⟩
  forChannel cid limit stored hfault hstored h := by
    refine givesCompleted_of_read hfault hstored (fun m hm => ?_) h
    obtain ⟨row, -, hrow⟩ := (Database.mem_readRows hstored).1 hm
    exact ⟨row, hrow⟩
  byStatus status after limit stored hfault hstored h := by
    refine givesCompleted_of_read hfault hstored (fun m hm => ?_) h
    obtain ⟨row, -, hrow⟩ := (Database.mem_readRows hstored).1 hm
    exact ⟨row, hrow⟩

/-- The current user mentions a cached user twice, a stored one, and one that nobody knows. -/
def mentionsThree : Message :=
  { messageBy (.new "me") with mentionedUsers := ["old", "far", "gone", "old"].map User.new }

/-- The database knows of no ban of the current user, nor of that of the cached one. -/
def knowsThree : Replica :=
  { Replica.new
      (((Database.create none).putUsers [.new "me", .new "old", bannedUser "far"]).putMessages
        [mentionsThree])
      (some (bannedUser "me")) 1 1 1 with
    users := (EntityCache.new 1).put (bannedUser "old") }

/-- The message with each of them as the place with the highest rank has them. -/
def mentionsThreeResolved : Message :=
  { messageBy (bannedUser "me") with
    mentionedUsers := [bannedUser "old", bannedUser "far", .new "gone", bannedUser "old"] }

/-- All four places are used for one message. -/
theorem completes_mentionsThree :
    (Messages.select "m1" knowsThree).1 = .ok (some mentionsThreeResolved) ∧
      knowsThree.Completes mentionsThree mentionsThreeResolved := by
  have hgroups : groupsOf (maxKeysPerQuery - 1) ["me", "far", "gone"] = [["me", "far", "gone"]] := by
    simp [groupsOf, maxKeysPerQuery]
  have husers : knowsThree.database.usersOf (knowsThree.missedUsers [mentionsThree])
      = .ok [bannedUser "far", .new "me"] := by
    show (Database.readRows _ ((groupsOf _ ["me", "far", "gone"]).flatMap _)).map _ = _
    rw [hgroups]
    rfl
  have hcomplete : knowsThree.CanComplete [mentionsThree] := ⟨_, husers, fun _ => rfl⟩
  obtain ⟨given, r', hgiven, hcompletes, -⟩ :=
    (completesReads knowsThree).select "m1" (some mentionsThree) rfl rfl rfl hcomplete
  obtain ⟨r'', hselect⟩ : ∃ r'', Messages.select "m1" knowsThree
      = (.ok ((some mentionsThree).map knowsThree.completed), r'') :=
    Messages.select_of_canComplete rfl rfl rfl hcomplete
  have hresolved : knowsThree.completed mentionsThree = mentionsThreeResolved := rfl
  rw [Option.map_some, hresolved] at hselect
  obtain rfl := Except.ok.inj (congrArg Prod.fst (hgiven.symm.trans hselect))
  exact ⟨congrArg Prod.fst hselect, (List.forall₂_cons.1 hcompletes).1⟩

end Replica

end OfflineChat
