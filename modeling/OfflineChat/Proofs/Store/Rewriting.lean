import OfflineChat.Proofs.Json.Nesting
import OfflineChat.Proofs.Repository.Shelf

/-! # Rewritten rows are stable

A row may have been written by others, with texts that this library never writes. What is read from
it and written again is read again as the same entity, and from then on its row stays as it is. Main
definitions: `NestsWithin`, for readers that keep to their budget, and `TextColumn.HasShortYear`.
Main statement: `Database.rewriting_is_stable`. -/

set_option autoImplicit false

namespace OfflineChat

open Draft (extraData? list? maxDepth)

/-! ## Readers and their budgets -/

/-- What a reader gives would be written as a document that nests within the budget. -/
def NestsWithin {α : Type} (ofDraft? : Nat → Draft → Option α) (toJson : α → Json) : Prop :=
  ∀ {budget : Nat} {d : Draft} {a : α}, ofDraft? budget d = some a → (toJson a).depth ≤ budget

theorem nestsWithin_extraData : NestsWithin extraData? ExtraData.toJson := by
  intro budget d x h
  unfold extraData? at h
  split at h
  · next fields hvalue =>
      obtain rfl := Option.some.inj h
      exact Draft.depth_of_value? hvalue
  · exact absurd h (by simp)

theorem mem_of_mapM {α β : Type} {f : α → Option β} {as : List α} {bs : List β}
    (h : as.mapM f = some bs) {b : β} (hb : b ∈ bs) : ∃ a ∈ as, f a = some b := by
  induction as generalizing bs with
  | nil =>
      obtain rfl := Option.some.inj h
      exact absurd hb List.not_mem_nil
  | cons a as ih =>
      rw [List.mapM_cons] at h
      obtain ⟨c, hc, h⟩ := Option.bind_eq_some_iff.1 h
      obtain ⟨cs, hcs, h⟩ := Option.bind_eq_some_iff.1 h
      obtain rfl := Option.some.inj h
      rcases List.mem_cons.1 hb with rfl | hb
      · exact ⟨a, List.mem_cons_self, hc⟩
      · obtain ⟨a', ha', hab⟩ := ih hcs hb
        exact ⟨a', List.mem_cons_of_mem _ ha', hab⟩

theorem nestsWithin_list {α : Type} {item? : Nat → Draft → Option α} {toJson : α → Json}
    (h : NestsWithin item? toJson) :
    NestsWithin (list? item?) fun as => .array (as.map toJson) := by
  intro budget d as hlist
  cases d with
  | array items =>
      cases budget with
      | zero => exact absurd hlist (by simp [list?])
      | succ budget =>
          refine Nat.succ_le_succ (Json.itemsDepth_le_iff.2 fun v hv => ?_)
          obtain ⟨a, ha, rfl⟩ := List.mem_map.1 hv
          obtain ⟨item, -, hitem⟩ := mem_of_mapM hlist ha
          exact h hitem
  | _ => exact absurd hlist (by simp [list?])

theorem Attachment.nestsWithin : NestsWithin Attachment.ofDraft? Attachment.toJson := by
  intro budget d a h
  cases budget with
  | zero => exact absurd h (by simp [ofDraft?])
  | succ budget =>
      simp only [ofDraft?] at h
      split at h
      · -- nothing nests but the further data, which is read last
        iterate 5 obtain ⟨_, _, h⟩ := Option.bind_eq_some_iff.1 h
        obtain ⟨x, hx, h⟩ := Option.bind_eq_some_iff.1 h
        obtain ⟨field, -, hx⟩ := Option.bind_eq_some_iff.1 hx
        rw [depth_toJson, ← Option.some.inj h]
        exact Nat.succ_le_succ (nestsWithin_extraData hx)
      · exact absurd h (by simp)

/-! ## Columns -/

theorem Column.depth_of_document {α : Type} {ofDraft? : Nat → Draft → Option α}
    {toJson : α → Json} (hread : NestsWithin ofDraft? toJson) {blank a : α} {index : Nat}
    {raw : Option String} (hblank : (toJson blank).depth ≤ maxDepth)
    (h : document ofDraft? blank index raw = .ok a) : (toJson a).depth ≤ maxDepth := by
  unfold document at h
  split at h
  · rwa [← Except.ok.inj h]
  · split at h
    · next b hb =>
        obtain rfl := Except.ok.inj h
        obtain ⟨d, -, hd⟩ := Option.bind_eq_some_iff.1 hb
        exact hread hd
    · exact nomatch h

theorem Column.document_of_read {α : Type} {ofDraft? : Nat → Draft → Option α} {blank a : α}
    {index : Nat} {s : String} (hs : isBlank (some s) = false)
    (h : readDocument? ofDraft? s = some a) : document ofDraft? blank index (some s) = .ok a := by
  rw [document, hs, Option.getD_some, h]
  rfl

namespace TextColumn

/-- The timestamp of a column, if it has one. -/
def timestamp? : TextColumn → Option Instant
  | timestamp t => t
  | document _ => none

/-- The year of a timestamp has four digits. -/
def HasShortYear (c : TextColumn) : Prop := ∀ t ∈ c.timestamp?, t.HasShortYear

instance (c : TextColumn) : Decidable c.HasShortYear :=
  inferInstanceAs (Decidable (∀ t ∈ c.timestamp?, t.HasShortYear))

/-- A document nests no deeper than documents may. -/
def IsShallow : TextColumn → Prop
  | timestamp _ => True
  | document v => v.depth ≤ maxDepth

theorem isReadable_of_shallow {c : TextColumn} (hyear : c.HasShortYear) (hdepth : c.IsShallow) :
    c.IsReadable := by
  cases c with
  | timestamp t => exact hyear
  | document v => exact hdepth

end TextColumn

namespace Row

variable {r : Row} {index : Nat} {column : String}

theorem depth_of_extraData {x : ExtraData} (h : r.extraData index column = .ok x) :
    x.toJson.depth ≤ maxDepth := by
  obtain ⟨raw, -, h⟩ := bind_eq_ok_iff.1 h
  exact Column.depth_of_document nestsWithin_extraData (by decide) h

theorem depth_of_attachments {as : List Attachment} (h : r.attachments index column = .ok as) :
    (Json.array (as.map Attachment.toJson)).depth ≤ maxDepth := by
  obtain ⟨raw, -, h⟩ := bind_eq_ok_iff.1 h
  exact Column.depth_of_document (nestsWithin_list Attachment.nestsWithin) (by decide) h

end Row

/-- A list of texts nests once, whatever it holds. -/
theorem Json.depth_ofTexts_le (texts : List String) : (ofTexts texts).depth ≤ maxDepth := by
  have hitems : itemsDepth (texts.map string) ≤ 126 :=
    itemsDepth_le_iff.2 fun v hv => by
      obtain ⟨s, -, rfl⟩ := List.mem_map.1 hv
      exact Nat.zero_le _
  exact Nat.succ_le_succ hitems

/-! ## Entities that were read -/

theorem Row.isShallow_of_message {r : Row} {m : Message} (h : r.message = .ok m) :
    ∀ c ∈ m.textColumns, c.2.IsShallow := by
  unfold message at h
  -- the ids of the mentioned users are read first, the attachments after five cells
  iterate 5 obtain ⟨_, _, h⟩ := bind_eq_ok_iff.1 h
  obtain ⟨attachments, hattachments, h⟩ := bind_eq_ok_iff.1 h
  iterate 5 obtain ⟨_, _, h⟩ := bind_eq_ok_iff.1 h
  obtain ⟨extraData, hextra, h⟩ := bind_eq_ok_iff.1 h
  iterate 2 obtain ⟨_, _, h⟩ := bind_eq_ok_iff.1 h
  obtain rfl := Except.ok.inj h
  simp only [Message.textColumns, List.forall_mem_cons, List.not_mem_nil, false_imp_iff,
    implies_true, and_true, TextColumn.IsShallow, true_and]
  exact ⟨Json.depth_ofTexts_le _, depth_of_attachments hattachments, depth_of_extraData hextra⟩

theorem Row.isShallow_of_channel {r : Row} {c : Channel} (h : r.channel = .ok c) :
    ∀ column ∈ c.textColumns, column.2.IsShallow := by
  unfold channel at h
  iterate 14 obtain ⟨_, _, h⟩ := bind_eq_ok_iff.1 h
  obtain ⟨extraData, hextra, h⟩ := bind_eq_ok_iff.1 h
  obtain ⟨_, _, h⟩ := bind_eq_ok_iff.1 h
  obtain rfl := Except.ok.inj h
  simp only [Channel.textColumns, List.forall_mem_cons, List.not_mem_nil, false_imp_iff,
    implies_true, and_true, TextColumn.IsShallow, true_and]
  exact depth_of_extraData hextra

/-- A channel that was read can be read back if no number is a floating-point number and no year is
longer than four digits. -/
theorem Row.isReadable_of_channel {r : Row} {c : Channel} (h : r.channel = .ok c)
    (hintegral : c.extraData.toJson.Integral)
    (hyears : ∀ column ∈ c.textColumns, column.2.HasShortYear) : c.IsReadable :=
  ⟨hintegral, fun column hcolumn =>
    TextColumn.isReadable_of_shallow (hyears column hcolumn) (isShallow_of_channel h column hcolumn)⟩

theorem Row.isShallow_of_userRecord {r : Row} {u : UserRecord} (h : r.userRecord = .ok u) :
    ∀ c ∈ u.user.textColumns, c.2.IsShallow := by
  unfold userRecord at h
  iterate 10 obtain ⟨_, _, h⟩ := bind_eq_ok_iff.1 h
  obtain ⟨extraData, hextra, h⟩ := bind_eq_ok_iff.1 h
  obtain ⟨_, _, h⟩ := bind_eq_ok_iff.1 h
  obtain rfl := Except.ok.inj h
  simp only [User.textColumns, List.forall_mem_cons, List.not_mem_nil, false_imp_iff,
    implies_true, and_true, TextColumn.IsShallow, true_and]
  exact ⟨Json.depth_ofTexts_le _, depth_of_extraData hextra⟩

/-! ## Writing again -/

/-- The second of two equal rows changes nothing. -/
theorem Table.put_put {α : Type} [Keyed α] (t : Table α) (a : α) : (t.put a).put a = t.put a := by
  refine ext_get? fun k => ?_
  by_cases hk : key a = k
  · rw [get?_put, if_pos hk, get?_put, if_pos hk]
  · rw [get?_put_of_ne _ hk]

namespace Database

theorem exists_row_of_readOne {α : Type} {read : Row → Except StoreError α} {t : Table Row}
    {k : String} {a : α} (h : readOne read t k = .ok (some a)) :
    ∃ r, t.get? k = some r ∧ read r = .ok a := by
  unfold readOne at h
  split at h
  · exact absurd (Except.ok.inj h) (by simp)
  · next r hr =>
      obtain ⟨b, hb, hba⟩ := map_eq_ok_iff.1 h
      exact ⟨r, hr, Option.some.inj hba ▸ hb⟩

/-- An entity that is written as `put` does is read back by `read`, and what is read can be written
again without any change to the database. -/
structure IsStable {α : Type} (put : Database → α → Database)
    (read : Database → Except StoreError (Option α)) (db : Database) (a : α) : Prop where
  read_put : read (put db a) = .ok (some a)
  put_read : ∀ b, read (put db a) = .ok (some b) → put (put db a) b = put db a

theorem isStable_of_reads {α : Type} {put : Database → α → Database}
    {read : Database → Except StoreError (Option α)} {db : Database} {a : α}
    (hread : read (put db a) = .ok (some a)) (hput : put (put db a) a = put db a) :
    IsStable put read db a where
  read_put := hread
  put_read b hb := by
    rw [hread] at hb
    rw [← Option.some.inj (Except.ok.inj hb), hput]

theorem readOne_put {α : Type} [Keyed α] {toRow : α → Row} (hkey : ∀ a, key (toRow a) = key a)
    {read : Row → Except StoreError α} {a : α} (hread : read (toRow a) = .ok a) (t : Table Row) :
    readOne read (t.put (toRow a)) (key a) = .ok (some a) := by
  have hget : (t.put (toRow a)).get? (key a) = some (toRow a) := by
    rw [← hkey a, Table.get?_put_self]
  rw [readOne, hget]
  show (read (toRow a)).map some = _
  rw [hread]
  rfl

variable {db : Database} {k : String}

theorem isStable_message {m : Message} (hread : db.message? k = .ok (some m))
    (hintegral : m.IsIntegral) (hyears : ∀ c ∈ m.textColumns, c.2.HasShortYear) :
    IsStable (fun db m => db.putMessages [m]) (fun db => db.message? k) db m := by
  obtain ⟨r, hr, hm⟩ := exists_row_of_readOne hread
  have hkey : m.id = k := (Row.key_of_message hm).trans (Table.key_of_get? hr)
  have hreadable : m.IsReadable := ⟨hintegral, fun c hc =>
    TextColumn.isReadable_of_shallow (hyears c hc) (Row.isShallow_of_message hm c hc)⟩
  -- the users of a message that was read have nothing but their ids to lose
  have hrow : m.toRow.message = .ok m := by
    rw [Message.readBack_eq hreadable, Row.withUserIds_of_message hm]
  subst hkey
  exact isStable_of_reads (readOne_put key_toRow_message hrow db.messages)
    (congrArg (fun t => { db with messages := t }) (db.messages.put_put m.toRow))

theorem isStable_channel {c : Channel} (hread : db.channel? k = .ok (some c))
    (hintegral : c.extraData.toJson.Integral)
    (hyears : ∀ column ∈ c.textColumns, column.2.HasShortYear) :
    IsStable (fun db c => db.putChannels [c]) (fun db => db.channel? k) db c := by
  obtain ⟨r, hr, hc⟩ := exists_row_of_readOne hread
  have hkey : c.cid = k := (Row.key_of_channel hc).trans (Table.key_of_get? hr)
  have hrow : c.toRow.channel = .ok c :=
    Channel.readBack_eq (Row.isReadable_of_channel hc hintegral hyears)
  subst hkey
  exact isStable_of_reads (readOne_put key_toRow_channel hrow db.channels)
    (congrArg (fun t => { db with channels := t }) (db.channels.put_put c.toRow))

/-- A user that was read may be written with any real id. -/
theorem isStable_user {u : UserRecord} (hread : db.userRecord? k = .ok (some u))
    (hintegral : u.user.extraData.toJson.Integral)
    (hyears : ∀ c ∈ u.user.textColumns, c.2.HasShortYear) (realId : Option String) :
    IsStable (fun db u => db.putUserRecords [u]) (fun db => db.userRecord? k) db
      ⟨u.user, realId⟩ := by
  obtain ⟨r, hr, hu⟩ := exists_row_of_readOne hread
  have hkey : u.user.id = k := (Row.key_of_userRecord hu).trans (Table.key_of_get? hr)
  have hreadable : u.user.IsReadable := ⟨hintegral, fun c hc =>
    TextColumn.isReadable_of_shallow (hyears c hc) (Row.isShallow_of_userRecord hu c hc)⟩
  let written : UserRecord := ⟨u.user, realId⟩
  have hrow : written.toRow.userRecord = .ok written := User.readBack_eq hreadable
  subst hkey
  exact isStable_of_reads (readOne_put key_toRow_userRecord hrow db.users)
    (congrArg (fun t => { db with users := t }) (db.users.put_put written.toRow))

/-- **Reading and writing again is stable.** Whatever the texts of a row are, if an entity can be
read from it whose years have four digits and whose numbers are integers, the entity is read back
once it has been written, and writing what is read changes nothing any more. A user may be written
with its real id or without any. -/
theorem rewriting_is_stable (db : Database) (k : String) :
    (∀ m, db.message? k = .ok (some m) → m.IsIntegral →
      (∀ c ∈ m.textColumns, c.2.HasShortYear) →
        IsStable (fun db m => db.putMessages [m]) (fun db => db.message? k) db m) ∧
    (∀ c, db.channel? k = .ok (some c) → c.extraData.toJson.Integral →
      (∀ column ∈ c.textColumns, column.2.HasShortYear) →
        IsStable (fun db c => db.putChannels [c]) (fun db => db.channel? k) db c) ∧
    (∀ u : UserRecord, db.userRecord? k = .ok (some u) → u.user.extraData.toJson.Integral →
      (∀ c ∈ u.user.textColumns, c.2.HasShortYear) →
        IsStable (fun db u => db.putUserRecords [u]) (fun db => db.userRecord? k) db u ∧
        IsStable (fun db u => db.putUsers [u])
          (fun db => (db.userRecord? k).map (Option.map UserRecord.user)) db u.user) := by
  refine ⟨fun m => isStable_message, fun c => isStable_channel, fun u hread hintegral hyears => ?_⟩
  refine ⟨isStable_user hread hintegral hyears u.realId, ?_⟩
  have hbare := isStable_user hread hintegral hyears none
  have hput : db.putUsers [u.user] = db.putUserRecords [⟨u.user, none⟩] := rfl
  refine isStable_of_reads ?_ (hbare.put_read _ hbare.read_put)
  rw [hput, hbare.read_put]
  rfl

/-! ## Rows with texts of others -/

/-- A message with blanks, an escape and a repeated key in its documents, an empty text for its
attachments, and a leap second with ten fraction digits on a clock that runs ahead. -/
def oddMessageRow : Row :=
  ⟨[ .text "m1", .text "team:a", .text "alice", .text "hi", .text "",
     .text " [ \"bob\" , \"\\u0061l\" ]", .text "2017-01-01t00:59:60.1234567899+01:00", .null,
     .null, .null, .null, .text "\x7b\"b\":1, \"a\":2,\"b\":3\x7d", .integer 1, .null ]⟩

/-- The message that such a row holds. -/
def oddMessage : Message :=
  { (default : Message) with
    id := "m1", cid := "team:a", user := User.new "alice", text := "hi"
    mentionedUsers := [User.new "bob", User.new "al"], createdAt := some leapSecond
    extraData := ⟨[("a", .int 2), ("b", .int 3)], by
      have hkeys : ["a", "b"].Pairwise (· < ·) := by decide
      have hfits : (Number.int 2).Fits ∧ (Number.int 3).Fits := by decide
      simp only [Json.Canonical]
      exact ⟨hkeys, hfits.1, hfits.2, trivial⟩⟩ }

theorem oddMessageRow_message : oddMessageRow.message = .ok oddMessage := by
  -- each text is made a list of characters before it is read
  have hids : readDocument? Draft.texts? " [ \"bob\" , \"\\u0061l\" ]" = some ["bob", "al"] := by
    unfold readDocument?
    generalize hcs : String.toList _ = cs
    simp only [String.reduceToList] at hcs
    subst hcs
    rfl
  have hdata : readDocument? Draft.extraData? "\x7b\"b\":1, \"a\":2,\"b\":3\x7d"
      = some oddMessage.extraData := by
    unfold readDocument?
    generalize hcs : String.toList _ = cs
    simp only [String.reduceToList] at hcs
    subst hcs
    rfl
  have htime : Instant.ofStored? "2017-01-01t00:59:60.1234567899+01:00".toList = some leapSecond := by
    generalize hcs : String.toList _ = cs
    simp only [String.reduceToList] at hcs
    subst hcs
    rfl
  have hmentioned : oddMessageRow.texts 5 "mentioned_user_ids" = .ok ["bob", "al"] :=
    bind_ok (Row.text?_of_cell (s := some _) rfl _) (Column.document_of_read (by decide) hids)
  have hcreated : oddMessageRow.instant? 6 "created_at" = .ok (some leapSecond) := by
    refine bind_ok (Row.text?_of_cell (s := some _) rfl _) ?_
    rw [Column.instant?, htime]
  have hextra : oddMessageRow.extraData 11 "extra_data" = .ok oddMessage.extraData :=
    bind_ok (Row.text?_of_cell (s := some _) rfl _) (Column.document_of_read (by decide) hdata)
  unfold Row.message
  rw [hmentioned, hcreated, hextra]
  rfl

/-- A channel with another number than 1 for a truth value, and a null for its further data. -/
def oddChannelRow : Row :=
  ⟨[ .text "team:a", .text "team", .text "a", .integer 0, .integer 7, .null, .text "",
     .integer 0, .null, .null, .null, .null, .null, .text "", .text "null", .integer 1 ]⟩

/-- A user with another number than 1 for a truth value, and its real id. -/
def oddUserRow : Row :=
  ⟨[ .text "me", .text "alice", .text "user", .null, .null, .null, .null, .null, .integer 0,
     .integer (-2), .text "", .text "null" ]⟩

/-- Rows with such texts are stable once they have been read and written. -/
theorem rewriting_is_stable_oddRows :
    let db : Database :=
      { create none with
        messages := Table.empty.put oddMessageRow
        channels := Table.empty.put oddChannelRow
        users := Table.empty.put oddUserRow }
    let channel : Channel := { Channel.new "team" "a" with frozen := true }
    let user : User := { User.new "me" with banned := true }
    (db.message? "m1" = .ok (some oddMessage) ∧
      IsStable (fun db m => db.putMessages [m]) (fun db => db.message? "m1") db oddMessage) ∧
    (db.channel? "team:a" = .ok (some channel) ∧
      IsStable (fun db c => db.putChannels [c]) (fun db => db.channel? "team:a") db channel) ∧
    (db.userRecord? "me" = .ok (some ⟨user, some "alice"⟩) ∧
      IsStable (fun db u => db.putUserRecords [u]) (fun db => db.userRecord? "me") db
        ⟨user, some "alice"⟩) := by
  intro db channel user
  have hmessage : db.message? "m1" = .ok (some oddMessage) := by
    have hrow : db.messages.get? "m1" = some oddMessageRow := rfl
    rw [message?, readOne, hrow]
    show oddMessageRow.message.map some = _
    rw [oddMessageRow_message]
    rfl
  have hchannel : db.channel? "team:a" = .ok (some channel) := rfl
  have huser : db.userRecord? "me" = .ok (some ⟨user, some "alice"⟩) := rfl
  obtain ⟨hmessages, -, -⟩ := rewriting_is_stable db "m1"
  obtain ⟨-, hchannels, -⟩ := rewriting_is_stable db "team:a"
  obtain ⟨-, -, husers⟩ := rewriting_is_stable db "me"
  have hintegral : oddMessage.IsIntegral := by
    have htwo : (Number.int 2).Fits := by decide
    have hthree : (Number.int 3).Fits := by decide
    exact ⟨⟨htwo, hthree, trivial⟩, fun a ha => absurd ha List.not_mem_nil⟩
  have hstable := (husers ⟨user, some "alice"⟩ huser trivial (by decide)).1
  exact ⟨⟨hmessage, hmessages oddMessage hmessage hintegral (by decide)⟩,
    ⟨hchannel, hchannels channel hchannel trivial (by decide)⟩, ⟨huser, hstable⟩⟩

end Database

end OfflineChat
