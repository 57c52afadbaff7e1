import OfflineChat.Proofs.Repository.Caching
import OfflineChat.Proofs.Store.Migrations
import OfflineChat.Proofs.Store.RowReading

/-! # The store is three keyed maps

After any calls, each table holds for every key the row of the entity that was written last under
the key since the table was last emptied. What the calls return and what is read follows from these
maps. Main definitions: `Table.IsMapOf`, for a table and the entities written to it, and
`Database.AnswersFrom`, for what is read. Main statement: `Database.is_three_maps`. -/

set_option autoImplicit false

namespace OfflineChat

/-! ## Tables as maps -/

section

variable {α : Type} [Keyed α]

theorem lastOfKey_append (as bs : List α) (k : String) :
    lastOfKey (as ++ bs) k = (lastOfKey bs k).or (lastOfKey as k) := by
  unfold lastOfKey
  rw [List.reverse_append, List.find?_append]

theorem isSome_lastOfKey_iff {as : List α} {k : String} :
    (lastOfKey as k).isSome ↔ k ∈ as.map key := by
  rw [← not_iff_not, ← lastOfKey_eq_none_iff, Option.not_isSome_iff_eq_none]

/-- A table holds, for every key, the row of the entity that was written last under it, and no
other row. -/
structure Table.IsMapOf (toRow : α → Row) (written : List α) (t : Table Row) : Prop where
  get?_eq : ∀ k, t.get? k = (lastOfKey written k).map toRow
  nodup_keys : (t.rows.map key).Nodup
  size_eq : t.size = (firstOfKeys written).length

/-- What a change makes of the rows of a table. -/
def TableChange.onTable (toRow : α → Row) : TableChange α → Table Row → Table Row
  | keep, t => t
  | put items, t => t.putAll (items.map toRow)
  | delete, _ => .empty

namespace Table

variable {toRow : α → Row} {written : List α} {t : Table Row}

theorem isMapOf_of_get? (h : ∀ k, t.get? k = (lastOfKey written k).map toRow) :
    t.IsMapOf toRow written := by
  have hkeys : ∀ k, k ∈ t.rows.map key ↔ k ∈ (firstOfKeys written).map key := by
    intro k
    rw [mem_keys_iff, mem_keys_firstOfKeys, ← isSome_lastOfKey_iff, h k,
      ← Option.isSome_iff_exists, Option.isSome_map]
  -- the keys are distinct on both sides, so that there are as many of them
  have hperm : (t.rows.map key).Perm ((firstOfKeys written).map key) :=
    (List.perm_ext_iff_of_nodup t.ascending.nodup_keys (nodup_keys_firstOfKeys written)).2 hkeys
  refine ⟨h, t.ascending.nodup_keys, ?_⟩
  have hlength := hperm.length_eq
  rwa [List.length_map, List.length_map] at hlength

theorem isMapOf_empty : (empty : Table Row).IsMapOf toRow ([] : List α) :=
  isMapOf_of_get? fun _ => rfl

/-- **A change to a table is a change to the map.** -/
theorem IsMapOf.onTable (hkey : ∀ a, key (toRow a) = key a) (h : t.IsMapOf toRow written)
    (change : TableChange α) :
    (change.onTable toRow t).IsMapOf toRow (change.following written) := by
  cases change with
  | keep => exact h
  | delete => exact isMapOf_empty
  | put items =>
      -- an item of the batch comes after everything that was written before
      refine isMapOf_of_get? fun k => ?_
      calc (t.putAll (items.map toRow)).get? k
          = (lastOfKey (items.map toRow) k).or (t.get? k) := get?_putAll_last t _ k
        _ = ((lastOfKey items k).map toRow).or ((lastOfKey written k).map toRow) := by
            rw [lastOfKey_map hkey, h.get?_eq]
        _ = (lastOfKey (written ++ items) k).map toRow := by
            rw [lastOfKey_append, Option.map_or]

theorem IsMapOf.fits (h : t.IsMapOf toRow written) (hfits : ∀ a, (toRow a).Fits) : t.Fits := by
  intro r hr
  have hget := get?_of_mem hr
  rw [h.get?_eq] at hget
  obtain ⟨a, -, rfl⟩ := Option.map_eq_some_iff.1 hget
  exact hfits a

end Table

/-! ## Reads from a map -/

/-- The entities last written under their keys of which `P` holds, by key. -/
structure IsSelection (written : List α) (P : α → Prop) (found : List α) : Prop where
  ascending : Ascending found
  mem_iff : ∀ a, a ∈ found ↔ lastOfKey written (key a) = some a ∧ P a

theorem atMost_map {β γ : Type} (limit : Nat) (f : β → γ) (items : List β) :
    atMost limit (items.map f) = (atMost limit items).map f := by
  unfold atMost
  split
  · exact List.map_take.symm
  · rfl

theorem Database.readRows_eq_mapM {β : Type} (read : Row → Except StoreError β) (rows : List Row) :
    readRows read rows = rows.mapM read := by
  induction rows with
  | nil => rfl
  | cons r rows ih => rw [readRows, List.mapM_cons, ih]

namespace Table.IsMapOf

variable {β : Type} {toRow : α → Row} {written : List α} {t : Table Row}

theorem readOne_eq (h : t.IsMapOf toRow written) (read : Row → Except StoreError β) (k : String) :
    Database.readOne read t k = (lastOfKey written k).mapM fun a => read (toRow a) := by
  unfold Database.readOne
  rw [h.get?_eq]
  cases lastOfKey written k with
  | none => rfl
  | some a =>
      show (read (toRow a)).map some = (some a).mapM fun a => read (toRow a)
      rw [Option.mapM_some]
      rfl

/-- Rows of the table are those of the entities that were written last under their keys. -/
theorem map_toRow (h : t.IsMapOf toRow written) {rows : List Row}
    (hrows : ∀ r ∈ rows, r ∈ t.rows) :
    (rows.filterMap fun r => lastOfKey written (key r)).map toRow = rows := by
  induction rows with
  | nil => rfl
  | cons r rows ih =>
      have hrest := ih fun s hs => hrows s (List.mem_cons_of_mem _ hs)
      have hget := get?_of_mem (hrows r List.mem_cons_self)
      rw [h.get?_eq] at hget
      obtain ⟨a, ha, hr⟩ := Option.map_eq_some_iff.1 hget
      have hcons : ((r :: rows).filterMap fun r => lastOfKey written (key r))
          = a :: rows.filterMap fun r => lastOfKey written (key r) := List.filterMap_cons_some ha
      rw [hcons, List.map_cons, hrest, hr]

/-- Distinct keys are read as the entities that were written last under them, in some order. -/
theorem readMany_eq (h : t.IsMapOf toRow written) (read : Row → Except StoreError β)
    {ks : List String} (hks : ks.Nodup) :
    ∃ found : List α, found.Perm (ks.filterMap (lastOfKey written)) ∧
      Database.readMany read t ks = found.mapM fun a => read (toRow a) := by
  let rows := (groupsOf (maxKeysPerQuery - 1) ks).flatMap t.among
  let found := rows.filterMap fun r => lastOfKey written (key r)
  refine ⟨found, ?_, ?_⟩
  · have hperm := (Database.flatMap_among_perm t (maxKeysPerQuery - 1) hks).filterMap
      fun r => lastOfKey written (key r)
    -- a row that is found under a key has that key
    have hsame : (fun k => (t.get? k).bind fun r => lastOfKey written (key r))
        = lastOfKey written := by
      funext k
      cases hk : t.get? k with
      | none =>
          have hlast := h.get?_eq k
          rw [hk] at hlast
          exact (Option.map_eq_none_iff.1 hlast.symm).symm
      | some r => rw [Option.bind_some, key_of_get? hk]
    rwa [List.filterMap_filterMap, hsame] at hperm
  · have hrows : found.map toRow = rows :=
      h.map_toRow fun r hr => (Database.mem_flatMap_among.1 hr).1
    calc Database.readMany read t ks = rows.mapM read := Database.readRows_eq_mapM read rows
      _ = (found.map toRow).mapM read := by rw [hrows]
      _ = found.mapM fun a => read (toRow a) := List.mapM_map

/-- The rows of a status above a key are those of the entities of that status above the key. -/
theorem withStatus_eq (hkey : ∀ a, key (toRow a) = key a) (h : t.IsMapOf toRow written)
    {cell : Row → Cell} {statusOf : α → SyncStatus}
    (hcell : ∀ a, cell (toRow a) = .integer (statusOf a).code) (status : SyncStatus)
    (after : Option String) :
    ∃ found, IsSelection written (fun a => statusOf a = status ∧ ∀ k ∈ after, k < key a) found ∧
      t.withStatus cell status after = found.map toRow := by
  let rows := t.withStatus cell status after
  have hmem : ∀ r ∈ rows, r ∈ t.rows := fun r hr => List.mem_of_mem_filter hr
  have hrows := h.map_toRow hmem
  refine ⟨rows.filterMap fun r => lastOfKey written (key r), ⟨?_, fun a => ?_⟩, hrows.symm⟩
  · have hascending : Ascending rows := ascending_withStatus t cell status after
    rw [← hrows] at hascending
    refine (List.pairwise_map.1 hascending).imp fun {a b} hab => ?_
    rwa [hkey, hkey] at hab
  · rw [List.mem_filterMap]
    constructor
    · rintro ⟨r, hr, ha⟩
      -- the row is that of `a`, and so are its key and its status
      obtain ⟨hget, hstatus, hafter⟩ := mem_withStatus_iff.1 hr
      have hrow : toRow a = r := by
        rw [h.get?_eq, ha] at hget
        exact Option.some.inj hget
      subst hrow
      rw [hcell] at hstatus
      rw [hkey] at ha hafter
      exact ⟨ha, SyncStatus.code_injective (Cell.integer.inj hstatus), hafter⟩
    · rintro ⟨ha, hstatus, hafter⟩
      refine ⟨toRow a, mem_withStatus_iff.2 ⟨?_, ?_, ?_⟩, ?_⟩
      · rw [h.get?_eq, hkey, ha, Option.map_some]
      · rw [hcell, hstatus]
      · rwa [hkey]
      · rwa [hkey]

end Table.IsMapOf

end

/-! ## Three tables -/

namespace Database

/-- Each table is the map of the entities written to it. -/
structure AreMapsOf (db : Database) (w : Written) : Prop where
  users : db.users.IsMapOf UserRecord.toRow w.users
  channels : db.channels.IsMapOf Channel.toRow w.channels
  messages : db.messages.IsMapOf Message.toRow w.messages

/-- All reads by key and by status are answered from the entities that were written last under their
keys. The entities of several keys may come in any order. -/
structure AnswersFrom (db : Database) (w : Written) : Prop where
  userRecord? : ∀ k, db.userRecord? k = (lastOfKey w.users k).mapM fun r => r.toRow.userRecord
  channel? : ∀ k, db.channel? k = (lastOfKey w.channels k).mapM fun c => c.toRow.channel
  message? : ∀ k, db.message? k = (lastOfKey w.messages k).mapM fun m => m.toRow.message
  usersOf : ∀ ks, ks.Nodup → ∃ found : List UserRecord,
    found.Perm (ks.filterMap (lastOfKey w.users)) ∧
      db.usersOf ks
        = (found.mapM fun r : UserRecord => r.toRow.userRecord).map (List.map UserRecord.user)
  channelsOf : ∀ ks, ks.Nodup → ∃ found : List Channel,
    found.Perm (ks.filterMap (lastOfKey w.channels)) ∧
      db.channelsOf ks = found.mapM fun c => c.toRow.channel
  messagesOf : ∀ ks, ks.Nodup → ∃ found : List Message,
    found.Perm (ks.filterMap (lastOfKey w.messages)) ∧
      db.messagesOf ks = found.mapM fun m => m.toRow.message
  channelsByStatus : ∀ status after limit, ∃ found,
    IsSelection w.channels (fun c => c.syncStatus = status ∧ ∀ k ∈ after, k < key c) found ∧
      db.channelsByStatus status after limit
        = (atMost limit found).mapM fun c => c.toRow.channel
  channelKeysByStatus : ∀ status, ∃ found,
    IsSelection w.channels (fun c => c.syncStatus = status) found ∧
      db.channelKeysByStatus status = found.map key
  messagesByStatus : ∀ status after limit, ∃ found,
    IsSelection w.messages (fun m => m.syncStatus = status ∧ ∀ k ∈ after, k < key m) found ∧
      db.messagesByStatus status after limit
        = (atMost limit found).mapM fun m => m.toRow.message

variable {db : Database} {w : Written}

/-- Maps answer all reads. -/
theorem AreMapsOf.answersFrom (h : db.AreMapsOf w) : db.AnswersFrom w where
  userRecord? := h.users.readOne_eq Row.userRecord
  channel? := h.channels.readOne_eq Row.channel
  message? := h.messages.readOne_eq Row.message
  usersOf ks hks := by
    obtain ⟨found, hperm, hread⟩ := h.users.readMany_eq Row.userRecord hks
    exact ⟨found, hperm, congrArg (Except.map (List.map UserRecord.user)) hread⟩
  channelsOf ks hks := h.channels.readMany_eq Row.channel hks
  messagesOf ks hks := h.messages.readMany_eq Row.message hks
  channelsByStatus status after limit := by
    obtain ⟨found, hfound, hrows⟩ :=
      h.channels.withStatus_eq key_toRow_channel channelStatus_toRow status after
    refine ⟨found, hfound, ?_⟩
    rw [Database.channelsByStatus, readRows_eq_mapM, hrows, atMost_map, List.mapM_map]
    rfl
  channelKeysByStatus status := by
    obtain ⟨found, hfound, hrows⟩ :=
      h.channels.withStatus_eq key_toRow_channel channelStatus_toRow status none
    have hkeys : db.channelKeysByStatus status = found.map key := by
      rw [Database.channelKeysByStatus, hrows, List.map_map]
      rfl
    exact ⟨found, ⟨hfound.ascending, fun c => by simpa using hfound.mem_iff c⟩, hkeys⟩
  messagesByStatus status after limit := by
    obtain ⟨found, hfound, hrows⟩ :=
      h.messages.withStatus_eq key_toRow_message messageStatus_toRow status after
    refine ⟨found, hfound, ?_⟩
    rw [Database.messagesByStatus, readRows_eq_mapM, hrows, atMost_map, List.mapM_map]
    rfl

/-! ## Calls one after another -/

/-- The tables are maps, and the schema is up to date. -/
structure Keeps (db : Database) (w : Written) : Prop where
  version : db.version = currentVersion
  maps : db.AreMapsOf w

theorem Keeps.fits (h : db.Keeps w) : db.file.Fits where
  version := by
    show -0x8000_0000 ≤ db.version ∧ db.version < 0x8000_0000
    rw [h.version]
    decide
  users _ ht := Option.some.inj ht ▸ h.maps.users.fits UserRecord.fits_toRow
  channels _ ht := Option.some.inj ht ▸ h.maps.channels.fits Channel.fits_toRow
  messages _ ht := Option.some.inj ht ▸ h.maps.messages.fits Message.fits_toRow

theorem keeps_create (path : Option String) : (create path).Keeps (DatabaseCall.written []) :=
  ⟨rfl, Table.isMapOf_empty, Table.isMapOf_empty, Table.isMapOf_empty⟩

/-- An up-to-date database is opened as it is. -/
theorem Keeps.opening (h : db.Keeps w) (o : Opening) :
    (DatabaseCall.opening o).run db = (.ok 0, db) := by
  have hrun := Opening.run_of_known h.fits o (.inr h.version)
  have hsame : ({ db with version := 1 } : Database) = db := by
    rw [show (1 : Int) = db.version from h.version.symm]
  rw [hsame] at hrun
  exact Action.bind_apply_ok hrun

end Database

namespace DatabaseCall

variable {db : Database} {w : Written}

/-- Each call makes one change to each table, and does not fail. -/
theorem run_tables (h : db.Keeps w) (c : DatabaseCall) :
    (∃ n, (c.run db).1 = .ok n) ∧ (c.run db).2.version = db.version ∧
      (c.run db).2.users = c.onUsers.onTable UserRecord.toRow db.users ∧
      (c.run db).2.channels = c.onChannels.onTable Channel.toRow db.channels ∧
      (c.run db).2.messages = c.onMessages.onTable Message.toRow db.messages := by
  cases c with
  | opening o =>
      rw [h.opening o]
      exact ⟨⟨0, rfl⟩, rfl, rfl, rfl, rfl⟩
  | putUsers | putUserRecords | putChannels | putMessages | deleteUsers | deleteChannels
  | deleteMessages | clear => exact ⟨⟨_, rfl⟩, rfl, rfl, rfl, rfl⟩

/-- A call keeps the tables maps, of what it writes and what was written before. -/
theorem keeps_run (h : db.Keeps w) (c : DatabaseCall) : (c.run db).2.Keeps (c.following w) := by
  obtain ⟨-, hversion, husers, hchannels, hmessages⟩ := run_tables h c
  refine ⟨hversion.trans h.version, ?_, ?_, ?_⟩
  · rw [husers]
    exact h.maps.users.onTable key_toRow_userRecord c.onUsers
  · rw [hchannels]
    exact h.maps.channels.onTable key_toRow_channel c.onChannels
  · rw [hmessages]
    exact h.maps.messages.onTable key_toRow_message c.onMessages

theorem keeps_runAll (h : db.Keeps w) (calls : List DatabaseCall) :
    (runAll calls db).Keeps (calls.foldl (fun w c => c.following w) w) := by
  induction calls generalizing db w with
  | nil => exact h
  | cons c calls ih => exact ih (keeps_run h c)

end DatabaseCall

/-- **The store is three independent keyed maps.** After any calls, each table holds for every key
the row of the entity written last under it since the last deletion, and nothing else, and all reads
are answered from these entities. Every further call succeeds, a deletion gives the number of rows
that there were, opening the database changes nothing, and a call on one table leaves the others as
they are. -/
theorem Database.is_three_maps (path : Option String) (calls : List DatabaseCall) :
    let db := DatabaseCall.runAll calls (create path)
    let w := DatabaseCall.written calls
    db.AreMapsOf w ∧ db.AnswersFrom w ∧
    (∀ c : DatabaseCall,
      (∃ n, (c.run db).1 = .ok n) ∧
      (c.onUsers = .keep → (c.run db).2.users = db.users) ∧
      (c.onChannels = .keep → (c.run db).2.channels = db.channels) ∧
      (c.onMessages = .keep → (c.run db).2.messages = db.messages)) ∧
    (∀ o, (DatabaseCall.opening o).run db = (.ok 0, db)) ∧
    (DatabaseCall.deleteUsers.run db).1 = .ok (firstOfKeys w.users).length ∧
    (DatabaseCall.deleteChannels.run db).1 = .ok (firstOfKeys w.channels).length ∧
    (DatabaseCall.deleteMessages.run db).1 = .ok (firstOfKeys w.messages).length ∧
    (DatabaseCall.clear.run db).1 = .ok ((firstOfKeys w.messages).length
      + (firstOfKeys w.channels).length + (firstOfKeys w.users).length) := by
  intro db w
  have h : db.Keeps w := DatabaseCall.keeps_runAll (keeps_create path) calls
  refine ⟨h.maps, h.maps.answersFrom, fun c => ?_, h.opening, ?_, ?_, ?_, ?_⟩
  · obtain ⟨hok, -, husers, hchannels, hmessages⟩ := DatabaseCall.run_tables h c
    refine ⟨hok, fun hkeep => ?_, fun hkeep => ?_, fun hkeep => ?_⟩
    · rw [husers, hkeep]
      rfl
    · rw [hchannels, hkeep]
      rfl
    · rw [hmessages, hkeep]
      rfl
  · exact congrArg Except.ok h.maps.users.size_eq
  · exact congrArg Except.ok h.maps.channels.size_eq
  · exact congrArg Except.ok h.maps.messages.size_eq
  · have husers := h.maps.users.size_eq
    have hchannels := h.maps.channels.size_eq
    have hmessages := h.maps.messages.size_eq
    show Except.ok (db.messages.size + db.channels.size + db.users.size) = _
    rw [husers, hchannels, hmessages]

namespace Database

/-- A user who has been banned since. -/
def bannedAlice : User := { User.new "alice" with banned := true }

/-- Two users and a channel, where one user is written twice and the file is opened again. -/
def aliceTwice : List DatabaseCall :=
  [ .putUsers [User.new "alice", User.new "bob"], .opening .reopen,
    .putChannels [Channel.new "team" "a"], .putUsers [bannedAlice] ]

/-- The user who was written twice has one row, that of the last writing, and the channel stays when
the two users are removed. -/
theorem is_three_maps_aliceTwice :
    let db := DatabaseCall.runAll aliceTwice (create (some "chat.db"))
    db.users.get? "alice" = some (UserRecord.toRow ⟨bannedAlice, none⟩) ∧
    (∃ found : List UserRecord, found.Perm [⟨User.new "bob", none⟩, ⟨bannedAlice, none⟩] ∧
      db.usersOf ["bob", "alice"]
        = (found.mapM fun r : UserRecord => r.toRow.userRecord).map (List.map UserRecord.user)) ∧
    (DatabaseCall.deleteUsers.run db).1 = .ok 2 ∧
    (DatabaseCall.deleteUsers.run db).2.channels = db.channels := by
  intro db
  obtain ⟨hmaps, hanswers, hcalls, -, hdeleted, -⟩ := is_three_maps (some "chat.db") aliceTwice
  obtain ⟨-, -, hchannels, -⟩ := hcalls .deleteUsers
  exact ⟨hmaps.users.get?_eq "alice", hanswers.usersOf ["bob", "alice"] (by decide), hdeleted,
    hchannels rfl⟩

end Database

end OfflineChat
