import OfflineChat.Proofs.Entity.Document
import OfflineChat.Proofs.Store.Selection
import OfflineChat.Proofs.Time.Stored
import OfflineChat.Store.Database

/-! # Written entities are read back

What the reader of a row makes of a row that was written for an entity. Only two kinds of cells can
fail it: the text of a timestamp whose year has not four digits, and the text of a document that
nests too deep. Main definitions: `TextColumn`, for what such a cell was written from; the
`textColumns` of each entity, in the order in which its reader comes to them; and `readBack`, the
entity or the failure of the first of its columns that cannot be read. Main statement:
`Database.reads_back`. -/

set_option autoImplicit false

namespace OfflineChat

/-! ## Columns with texts of their own -/

/-- What a column with a text of its own was written from. -/
inductive TextColumn where
  | timestamp (t : Option Instant)
  | document (v : Json)

namespace TextColumn

/-- What the text of the column should be. -/
def form : TextColumn → TextForm
  | timestamp _ => .timestamp
  | document _ => .json

/-- The text of the column can be read: the year of a timestamp has four digits, and a document
nests no deeper than documents may. -/
def IsReadable : TextColumn → Prop
  | timestamp t => ∀ s ∈ t, s.HasShortYear
  | document v => v.depth ≤ Draft.maxDepth

instance : (c : TextColumn) → Decidable c.IsReadable
  | timestamp none => .isTrue (by simp [IsReadable])
  | timestamp (some t) => decidable_of_iff t.HasShortYear (by simp [IsReadable])
  | document v => inferInstanceAs (Decidable (v.depth ≤ Draft.maxDepth))

end TextColumn

/-- The columns of a message in the order in which they are read: the mentioned users come first. -/
def Message.textColumns (m : Message) : List (Nat × TextColumn) :=
  [ (5, .document (.ofTexts (m.mentionedUsers.map User.id))),
    (4, .document (.array (m.attachments.map Attachment.toJson))),
    (6, .timestamp m.createdAt),
    (7, .timestamp m.createdLocallyAt),
    (8, .timestamp m.updatedAt),
    (9, .timestamp m.updatedLocallyAt),
    (10, .timestamp m.deletedAt),
    (11, .document m.extraData.toJson) ]

/-- The columns of a channel in the order in which they are read. -/
def Channel.textColumns (c : Channel) : List (Nat × TextColumn) :=
  [ (9, .timestamp c.lastMessageAt),
    (10, .timestamp c.createdAt),
    (11, .timestamp c.updatedAt),
    (12, .timestamp c.deletedAt),
    (14, .document c.extraData.toJson) ]

/-- The columns of a user in the order in which they are read. -/
def User.textColumns (u : User) : List (Nat × TextColumn) :=
  [ (5, .timestamp u.createdAt),
    (6, .timestamp u.updatedAt),
    (7, .timestamp u.lastActive),
    (10, .document (.ofTexts u.mutes)),
    (11, .document u.extraData.toJson) ]

/-- What reading an entity with these columns gives: the entity if all of them can be read, else the
failure of the first that cannot. -/
def readBack {α : Type} (columns : List (Nat × TextColumn)) (a : α) : Except StoreError α :=
  match columns.find? fun c => !decide c.2.IsReadable with
  | none => .ok a
  | some (index, c) => .error (.unreadable index c.form)

/-- Reading goes on behind a cell that holds what was written. -/
theorem bind_ok {α β : Type} {x : Except StoreError α} {a : α}
    {f : α → Except StoreError β} {y : Except StoreError β} (hx : x = .ok a) (hf : f a = y) :
    x >>= f = y := by
  subst hx
  exact hf

/-- Reading goes on behind a column with a text of its own if that column can be read. -/
theorem bind_column {α β : Type} {x : Except StoreError α} {a : α}
    {f : α → Except StoreError β} {b : β} {column : Nat × TextColumn}
    {columns : List (Nat × TextColumn)} (hx : x = readBack [column] a)
    (hf : f a = readBack columns b) : x >>= f = readBack (column :: columns) b := by
  subst hx
  by_cases h : column.2.IsReadable
  · have hok : readBack [column] a = .ok a := by simp [readBack, h]
    have hrest : readBack (column :: columns) b = readBack columns b := by simp [readBack, h]
    rw [hok, hrest, ← hf]
    rfl
  · have herror : ∀ {γ : Type} (columns : List (Nat × TextColumn)) (c : γ),
        readBack (column :: columns) c = .error (.unreadable column.1 column.2.form) := by
      intro γ columns c
      simp [readBack, h]
    rw [herror, herror]
    rfl

theorem readBack_of_readable {α : Type} {columns : List (Nat × TextColumn)}
    (h : ∀ c ∈ columns, c.2.IsReadable) (a : α) : readBack columns a = .ok a := by
  have hfind : (columns.find? fun c => !decide c.2.IsReadable) = none :=
    List.find?_eq_none.2 fun c hc => by simp [h c hc]
  rw [readBack, hfind]

namespace Column

theorem instant?_ofInstant?_some (index : Nat) (t : Instant) :
    instant? index (ofInstant? (some t))
      = if t.HasShortYear then .ok (some t) else .error (.unreadable index .timestamp) := by
  have hread := t.ofStored?_storedText
  by_cases h : t.HasShortYear
  · rw [if_pos h] at hread ⊢
    simp only [ofInstant?, Option.map_some, instant?, String.toList_ofList, hread]
  · rw [if_neg h] at hread ⊢
    simp only [ofInstant?, Option.map_some, instant?, String.toList_ofList, hread]

theorem instant?_ofInstant? (index : Nat) (t : Option Instant) :
    instant? index (ofInstant? t) = readBack [(index, .timestamp t)] t := by
  cases t with
  | none => rfl
  | some t =>
      rw [instant?_ofInstant?_some]
      by_cases h : t.HasShortYear
      · have hc : (TextColumn.timestamp (some t)).IsReadable := by simpa [TextColumn.IsReadable]
        simp [h, readBack, hc]
      · have hc : ¬(TextColumn.timestamp (some t)).IsReadable := by simpa [TextColumn.IsReadable]
        simp [h, readBack, hc, TextColumn.form]

/-- The text of an array or object is not blank. -/
theorem isBlank_ofJson {v : Json} (h : 0 < v.depth) : isBlank (some (ofJson v)) = false := by
  have hne : ∀ (c : Char) (cs : List Char), c = '[' ∨ c = '\x7b' →
      isBlank (some (String.ofList (c :: cs))) = false := by
    intro c cs hc
    have h1 : String.ofList (c :: cs) ≠ "" := fun h => by
      simpa using congrArg String.toList h
    have h2 : String.ofList (c :: cs) ≠ "null" := fun h => by
      have hn : c = 'n' := (List.cons.inj (by simpa using congrArg String.toList h)).1
      rcases hc with rfl | rfl <;> exact absurd hn (by decide)
    simp only [isBlank, h1, h2, decide_false, Bool.or_self]
  cases v with
  | array items => exact hne '[' _ (.inl rfl)
  | object fields => exact hne '\x7b' _ (.inr rfl)
  | null | bool b | number n | string s => exact absurd h (Nat.lt_irrefl 0)

/-- A document that is read back from its draft is read back from its column. -/
theorem document_ofJson {α : Type} {ofDraft? : Nat → Draft → Option α} {toJson : α → Json} {a : α}
    (h : ReadsBack ofDraft? toJson a) (hd : 0 < (toJson a).depth) (hi : (toJson a).Integral)
    (blank : α) (index : Nat) :
    document ofDraft? blank index (some (ofJson (toJson a)))
      = readBack [(index, .document (toJson a))] a := by
  have hread : readDocument? ofDraft? (ofJson (toJson a))
      = if (toJson a).depth ≤ Draft.maxDepth then some a else none := by
    calc readDocument? ofDraft? (ofJson (toJson a))
        = (Draft.parse? (toJson a).text).bind (ofDraft? Draft.maxDepth) := by
          rw [readDocument?, ofJson, String.toList_ofList]
      _ = ofDraft? Draft.maxDepth (toJson a).toDraft := by
          rw [Draft.parse?_text hi, Option.bind_some]
      _ = _ := h Draft.maxDepth
  rw [document, isBlank_ofJson hd]
  simp only [Bool.false_eq_true, if_false, Option.getD_some, hread]
  by_cases hr : (toJson a).depth ≤ Draft.maxDepth
  · have hc : (TextColumn.document (toJson a)).IsReadable := hr
    simp [hr, readBack, hc]
  · have hc : ¬(TextColumn.document (toJson a)).IsReadable := hr
    simp [hr, readBack, hc, TextColumn.form]

end Column

/-! ## Cells -/

namespace Row

variable {r : Row} {index : Nat}

theorem text_of_cell {s : String} (h : r.cell index = .text s) (column : String) :
    r.text index column = .ok s := by
  rw [text, h]

theorem text?_of_cell {s : Option String} (h : r.cell index = .ofText? s) (column : String) :
    r.text? index column = .ok s := by
  rw [text?, h]
  cases s <;> rfl

theorem bool_of_cell {b : Bool} (h : r.cell index = .ofBool b) (column : String) :
    r.bool index column = .ok b := by
  rw [bool, h]
  cases b <;> rfl

theorem bool?_of_cell {b : Option Bool} (h : r.cell index = .ofBool? b) (column : String) :
    r.bool? index column = .ok b := by
  rw [bool?, h]
  rcases b with _ | _ | _ <;> rfl

theorem int32_of_cell {n : Int32} (h : r.cell index = .ofInt32 n) (column : String) :
    r.int32 index column = .ok n := by
  have hrange : -0x8000_0000 ≤ n.toInt ∧ n.toInt < 0x8000_0000 := ⟨n.le_toInt, n.toInt_lt⟩
  have hn : Int32.ofInt n.toInt = n := Int32.ofInt_toInt n
  rw [int32, h]
  simp only [Cell.ofInt32]
  rw [if_pos hrange, hn]

theorem status_of_cell {s : SyncStatus} (h : r.cell index = .integer s.code) (column : String) :
    r.status index column = .ok s := by
  have hcode : r.int32 index column = .ok (Int32.ofInt s.code) := by
    rw [int32, h]
    cases s <;> rfl
  rw [status, hcode]
  cases s <;> rfl

theorem instant?_of_cell {t : Option Instant} (h : r.cell index = .ofText? (Column.ofInstant? t))
    (column : String) : r.instant? index column = readBack [(index, .timestamp t)] t :=
  bind_ok (text?_of_cell h column) (Column.instant?_ofInstant? index t)

/-- A cell with the text of a document is read as that document. -/
theorem document_of_cell {α : Type} {ofDraft? : Nat → Draft → Option α} {toJson : α → Json}
    {a : α} (hr : ReadsBack ofDraft? toJson a) (hd : 0 < (toJson a).depth)
    (hi : (toJson a).Integral) (h : r.cell index = .text (Column.ofJson (toJson a))) (blank : α)
    (column : String) :
    (r.text? index column >>= Column.document ofDraft? blank index)
      = readBack [(index, .document (toJson a))] a :=
  bind_ok (text?_of_cell (s := some _) h column) (Column.document_ofJson hr hd hi blank index)

theorem texts_of_cell {texts : List String} (h : r.cell index = .text (Column.ofTexts texts))
    (column : String) :
    r.texts index column = readBack [(index, .document (.ofTexts texts))] texts :=
  document_of_cell (readsBack_texts texts) (Nat.succ_pos _) (integral_ofTexts texts) h [] column

theorem extraData_of_cell {x : ExtraData} (hx : x.toJson.Integral)
    (h : r.cell index = .text (Column.ofExtraData x)) (column : String) :
    r.extraData index column = readBack [(index, .document x.toJson)] x :=
  document_of_cell (readsBack_extraData x) (Nat.succ_pos _) hx h .empty column

theorem attachments_of_cell {as : List Attachment}
    (ha : ∀ a ∈ as, a.extraData.toJson.Integral)
    (h : r.cell index = .text (Column.ofAttachments as)) (column : String) :
    r.attachments index column
      = readBack [(index, .document (.array (as.map Attachment.toJson)))] as := by
  have hread := readsBack_list fun a (_ : a ∈ as) => a.readsBack
  have hi : (Json.array (as.map Attachment.toJson)).Integral := by
    simp only [Json.Integral]
    exact integralItems_map fun a hm => a.integral_toJson (ha a hm)
  exact document_of_cell hread (Nat.succ_pos _) hi h [] column

end Row

/-! ## Rows -/

/-- What is left of a message in its row: of its users only the ids. -/
def Message.withUserIds (m : Message) : Message :=
  { m with user := User.new m.user.id, mentionedUsers := m.mentionedUsers.map fun u => .new u.id }

/-- The numbers in the further data of a message and of its attachments are integers. -/
def Message.IsIntegral (m : Message) : Prop :=
  m.extraData.toJson.Integral ∧ ∀ a ∈ m.attachments, a.extraData.toJson.Integral

theorem Row.userRecord_toRow {r : UserRecord} (h : r.user.extraData.toJson.Integral) :
    r.toRow.userRecord = readBack r.user.textColumns r := by
  unfold userRecord User.textColumns
  refine bind_ok (text_of_cell rfl "id") ?_
  refine bind_ok (text_of_cell rfl "role") ?_
  refine bind_ok (text?_of_cell rfl "name") ?_
  refine bind_ok (text?_of_cell rfl "image") ?_
  refine bind_column (instant?_of_cell rfl "created_at") ?_
  refine bind_column (instant?_of_cell rfl "updated_at") ?_
  refine bind_column (instant?_of_cell rfl "last_active") ?_
  refine bind_ok (bool_of_cell rfl "invisible") ?_
  refine bind_ok (bool_of_cell rfl "banned") ?_
  refine bind_column (texts_of_cell rfl "mutes") ?_
  refine bind_column (extraData_of_cell h rfl "extra_data") ?_
  -- the real id has the second column, but is read last
  exact bind_ok (text?_of_cell rfl "original_id") rfl

theorem Row.channel_toRow {c : Channel} (h : c.extraData.toJson.Integral) :
    c.toRow.channel = readBack c.textColumns c := by
  unfold channel Channel.textColumns
  refine bind_ok (text_of_cell rfl "cid") ?_
  refine bind_ok (text_of_cell rfl "type") ?_
  refine bind_ok (text_of_cell rfl "channel_id") ?_
  refine bind_ok (int32_of_cell rfl "cooldown") ?_
  refine bind_ok (bool_of_cell rfl "frozen") ?_
  refine bind_ok (bool?_of_cell rfl "hidden") ?_
  refine bind_ok (text_of_cell rfl "created_by_user_id") ?_
  refine bind_ok (int32_of_cell rfl "member_count") ?_
  refine bind_ok (text?_of_cell rfl "last_message_id") ?_
  refine bind_column (instant?_of_cell rfl "last_message_at") ?_
  refine bind_column (instant?_of_cell rfl "created_at") ?_
  refine bind_column (instant?_of_cell rfl "updated_at") ?_
  refine bind_column (instant?_of_cell rfl "deleted_at") ?_
  refine bind_ok (text_of_cell rfl "team") ?_
  refine bind_column (extraData_of_cell h rfl "extra_data") ?_
  exact bind_ok (status_of_cell rfl "sync_status") rfl

theorem Row.message_toRow {m : Message} (h : m.IsIntegral) :
    m.toRow.message = readBack m.textColumns m.withUserIds := by
  have husers : (m.mentionedUsers.map User.id).map User.new = m.withUserIds.mentionedUsers := by
    rw [List.map_map]
    rfl
  unfold message Message.textColumns
  -- the author and the mentioned users are read before everything else
  refine bind_ok (text_of_cell rfl "user_id") ?_
  refine bind_column (texts_of_cell rfl "mentioned_user_ids") ?_
  refine bind_ok (text_of_cell rfl "id") ?_
  refine bind_ok (text_of_cell rfl "cid") ?_
  refine bind_ok (text_of_cell rfl "text") ?_
  refine bind_column (attachments_of_cell h.2 rfl "attachments") ?_
  refine bind_column (instant?_of_cell rfl "created_at") ?_
  refine bind_column (instant?_of_cell rfl "created_locally_at") ?_
  refine bind_column (instant?_of_cell rfl "updated_at") ?_
  refine bind_column (instant?_of_cell rfl "updated_locally_at") ?_
  refine bind_column (instant?_of_cell rfl "deleted_at") ?_
  refine bind_column (extraData_of_cell h.1 rfl "extra_data") ?_
  refine bind_ok (status_of_cell rfl "sync_status") ?_
  refine bind_ok (text?_of_cell rfl "sync_description") ?_
  rw [husers]
  rfl

/-! ## Tables -/

theorem Table.get?_putAll_append {α : Type} [Keyed α] (t : Table α) (before : List α)
    {after : List α} {a : α} (h : key a ∉ after.map key) :
    (t.putAll (before ++ a :: after)).get? (key a) = some a := by
  rw [putAll_append, putAll_cons, get?_putAll_of_not_mem _ h, get?_put_self]

namespace Database

/-- The row that a batch leaves under a key is that of the last entity with this key. -/
theorem readOne_putAll {α β : Type} [Keyed α] {toRow : α → Row}
    (hkey : ∀ a, key (toRow a) = key a) (read : Row → Except StoreError β) (t : Table Row)
    (before : List α) {after : List α} {a : α} (h : key a ∉ after.map key) :
    readOne read (t.putAll ((before ++ a :: after).map toRow)) (key a)
      = (read (toRow a)).map some := by
  have hkeys : (after.map toRow).map key = after.map key := by
    rw [List.map_map]
    exact List.map_congr_left fun b _ => hkey b
  have hlast : key (toRow a) ∉ (after.map toRow).map key := by
    rw [hkeys, hkey]
    exact h
  have hget := t.get?_putAll_append (before.map toRow) hlast
  rw [hkey] at hget
  calc readOne read (t.putAll ((before ++ a :: after).map toRow)) (key a)
      = readOne read (t.putAll (before.map toRow ++ toRow a :: after.map toRow)) (key a) := by
        rw [List.map_append, List.map_cons]
    _ = (read (toRow a)).map some := by rw [readOne, hget]

/-- **What the writers store is read back exactly.** After a batch with the entity `a`, and with no
other of its key behind it, the read of its key gives that entity back, a message with the ids of
its users only, if the texts of all its columns can be read; otherwise it fails at the first column
that cannot be read, in the order in which they are read. -/
theorem reads_back (db : Database) :
    (∀ (before : List Message) (a : Message) (after : List Message),
      a.IsIntegral → a.id ∉ after.map Message.id →
        (db.putMessages (before ++ a :: after)).message? a.id
          = (readBack a.textColumns a.withUserIds).map some) ∧
    (∀ (before : List Channel) (a : Channel) (after : List Channel),
      a.extraData.toJson.Integral → a.cid ∉ after.map Channel.cid →
        (db.putChannels (before ++ a :: after)).channel? a.cid
          = (readBack a.textColumns a).map some) ∧
    (∀ (before : List UserRecord) (a : UserRecord) (after : List UserRecord),
      a.user.extraData.toJson.Integral → a.user.id ∉ after.map (fun r => r.user.id) →
        (db.putUserRecords (before ++ a :: after)).userRecord? a.user.id
          = (readBack a.user.textColumns a).map some) := by
  refine ⟨fun before a after hi h => ?_, fun before a after hi h => ?_,
    fun before a after hi h => ?_⟩
  · have hread := readOne_putAll key_toRow_message Row.message db.messages before h
    rw [Row.message_toRow hi] at hread
    exact hread
  · have hread := readOne_putAll key_toRow_channel Row.channel db.channels before h
    rw [Row.channel_toRow hi] at hread
    exact hread
  · have hread := readOne_putAll key_toRow_userRecord Row.userRecord db.users before h
    rw [Row.userRecord_toRow hi] at hread
    exact hread

/-- The leap second at the end of 2016. -/
def leapSecond : Instant := ⟨⟨2016, 12, 31, by decide⟩, 23, 59, 60, 123_456_789, by decide⟩

/-- Noon of the first day whose year has five digits. -/
def year10000 : Instant := ⟨⟨10000, 1, 1, by decide⟩, 12, 0, 0, 0, by decide⟩

/-- A message with a file whose upload has begun, and with further data. -/
def uploadingMessage : Message :=
  { (default : Message) with
    id := "m1", text := "\"\\\x07\n", createdAt := some leapSecond
    attachments := [{ (default : Attachment) with uploadState := .inProgress 5 10 }]
    extraData := ⟨[("a", .array [.int (-1), .int 0xFFFF_FFFF_FFFF_FFFF])], by
      simp [Json.Canonical, Json.AscendingKeys, Json.CanonicalFields, Json.CanonicalItems, Json.int,
        Number.Fits]⟩ }

/-- A leap second and a file under way are read back; a year with five digits is not, and stands in
column 11 of a channel. -/
theorem reads_back_leapSecond :
    ((create none).putMessages [uploadingMessage]).message? "m1"
      = .ok (some uploadingMessage.withUserIds) ∧
    ((create none).putChannels
      [{ Channel.new "team" "a" with updatedAt := some year10000 }]).channel? "team:a"
      = .error (.unreadable 11 .timestamp) ∧
    ((create none).putUserRecords [⟨User.new "me", some "alice"⟩]).userRecord? "me"
      = .ok (some ⟨User.new "me", some "alice"⟩) := by
  obtain ⟨hmessage, hchannel, huser⟩ := reads_back (create none)
  refine ⟨?_, ?_, ?_⟩
  · have hlow : (Number.int (-1)).Fits := by decide
    have hhigh : (Number.int 0xFFFF_FFFF_FFFF_FFFF).Fits := by decide
    have hi : uploadingMessage.IsIntegral := by
      refine ⟨⟨⟨hlow, hhigh, trivial⟩, trivial⟩, fun a ha => ?_⟩
      obtain rfl := List.mem_singleton.1 ha
      exact trivial
    exact hmessage [] uploadingMessage [] hi List.not_mem_nil
  · exact hchannel [] { Channel.new "team" "a" with updatedAt := some year10000 } [] trivial
      List.not_mem_nil
  · exact huser [] ⟨User.new "me", some "alice"⟩ [] trivial List.not_mem_nil

end Database

end OfflineChat
