import OfflineChat.Proofs.Store.KeyedMaps
import OfflineChat.Proofs.Store.ReadBack
import OfflineChat.Proofs.Text.ByteOrder
import OfflineChat.Proofs.Time.StoredOrder

/-! # The history of a channel

The history of a channel is selected by the texts that its rows hold: these are sorted, the newest
first, and cut off at the limit. The texts sort as the times of the messages do. Main definitions:
`IsLater`, for times one of which may be missing, `Message.Precedes`, the order of a history, and
`IsHistory`, a whole one. Main statements: rows sort as their messages do
(`Message.newerFirst_toRow_iff`), and what is selected is the front of the history
(`Database.newest_first`). -/

set_option autoImplicit false

namespace OfflineChat

/-! ## Times that may be missing -/

/-- One time comes after the other; a time that is missing comes before all others. -/
def IsLater {α : Type} [LT α] (x y : Option α) : Prop := ∃ s ∈ x, ∀ t ∈ y, t < s

namespace IsLater

variable {x y z : Option String}

theorem trans (h : IsLater x y) (h' : IsLater y z) : IsLater x z := by
  obtain ⟨s, hs, hy⟩ := h
  obtain ⟨t, ht, hz⟩ := h'
  exact ⟨s, hs, fun u hu => String.lt_trans (hz u hu) (hy t ht)⟩

theorem trichotomous (x y : Option String) : IsLater x y ∨ x = y ∨ IsLater y x := by
  cases x with
  | none =>
      cases y with
      | none => exact .inr (.inl rfl)
      | some t => exact .inr (.inr ⟨t, rfl, fun _ h => nomatch h⟩)
  | some s =>
      cases y with
      | none => exact .inl ⟨s, rfl, fun _ h => nomatch h⟩
      | some t =>
          by_cases hts : t < s
          · exact .inl ⟨s, rfl, fun _ h => Option.some.inj h ▸ hts⟩
          · rcases List.le_iff_lt_or_eq.1 (String.not_lt.1 hts) with hst | hst
            · exact .inr (.inr ⟨t, rfl, fun _ h => Option.some.inj h ▸ hst⟩)
            · exact .inr (.inl (congrArg some (String.toList_inj.1 hst)))

end IsLater

/-! ## The order of rows -/

namespace Row

/-- The text that places a row in the history of a channel. -/
def sentText? (r : Row) : Option String :=
  match r.sentAt with
  | .text s => some s
  | _ => none

/-- Rows are sorted by their texts, and those of the same text by their keys. -/
theorem newerFirst_iff {a b : Row} :
    a.newerFirst b = true ↔
      IsLater a.sentText? b.sentText? ∨ a.sentText? = b.sentText? ∧ key b ≤ key a := by
  unfold newerFirst sentText? IsLater
  cases a.sentAt <;> cases b.sentAt <;> simp

theorem newerFirst_trans (a b c : Row) (hab : a.newerFirst b = true)
    (hbc : b.newerFirst c = true) : a.newerFirst c = true := by
  rw [newerFirst_iff] at *
  rcases hab with hab | ⟨hab, hkey⟩
  · rcases hbc with hbc | ⟨hbc, -⟩
    · exact .inl (hab.trans hbc)
    · exact .inl (hbc ▸ hab)
  · rcases hbc with hbc | ⟨hbc, hkey'⟩
    · exact .inl (hab ▸ hbc)
    · exact .inr ⟨hab.trans hbc, String.le_trans hkey' hkey⟩

theorem newerFirst_total (a b : Row) : (a.newerFirst b || b.newerFirst a) = true := by
  rw [Bool.or_eq_true, newerFirst_iff, newerFirst_iff]
  rcases IsLater.trichotomous a.sentText? b.sentText? with h | h | h
  · exact .inl (.inl h)
  · rcases String.le_total (key b) (key a) with hkey | hkey
    · exact .inl (.inr ⟨h, hkey⟩)
    · exact .inr (.inr ⟨h.symm, hkey⟩)
  · exact .inr (.inl h)

end Row

/-! ## The order of messages -/

namespace Message

/-- One message comes before another in the history of a channel: it is newer, or of the same time
and has the greater id. -/
def Precedes (a b : Message) : Prop :=
  IsLater a.effectiveCreatedAt b.effectiveCreatedAt ∨
    a.effectiveCreatedAt = b.effectiveCreatedAt ∧ Text.bytes b.id < Text.bytes a.id

/-- The text that places a message is that of its time. -/
theorem sentText?_toRow (m : Message) :
    m.toRow.sentText? = Column.ofInstant? m.effectiveCreatedAt := by
  unfold Row.sentText?
  rw [sentAt_toRow]
  cases Column.ofInstant? m.effectiveCreatedAt <;> rfl

end Message

/-- Stored times come one after the other as the times do. -/
theorem isLater_ofInstant?_iff {x y : Option Instant} (hx : ∀ t ∈ x, t.HasShortYear)
    (hy : ∀ t ∈ y, t.HasShortYear) :
    IsLater (Column.ofInstant? x) (Column.ofInstant? y) ↔ IsLater x y := by
  unfold IsLater Column.ofInstant?
  cases x with
  | none => simp
  | some s =>
      cases y with
      | none => simp
      | some t =>
          have hs : s.HasShortYear := hx s rfl
          have ht : t.HasShortYear := hy t rfl
          simpa using Instant.ofList_storedText_lt_iff ht hs

theorem ofInstant?_inj {x y : Option Instant} (hx : ∀ t ∈ x, t.HasShortYear)
    (hy : ∀ t ∈ y, t.HasShortYear) : Column.ofInstant? x = Column.ofInstant? y ↔ x = y := by
  constructor
  · intro h
    unfold Column.ofInstant? at h
    cases x with
    | none => cases y with
      | none => rfl
      | some t => exact nomatch h
    | some s => cases y with
      | none => exact nomatch h
      | some t =>
          have htext := String.ofList_inj.1 (Option.some.inj h)
          rw [(Instant.storedText_inj (hx s rfl) (hy t rfl)).1 htext]
  · rintro rfl
    rfl

namespace Message

/-- A message that is read back has a time whose year has four digits, if it has one. -/
theorem hasShortYear_of_read {m m' : Message} (h : m.toRow.message = .ok m') :
    ∀ t ∈ m.effectiveCreatedAt, t.HasShortYear := by
  have hcolumn : ∀ {index : Nat} {x y : Option Instant},
      readBack [(index, .timestamp x)] x = .ok y → ∀ t ∈ x, t.HasShortYear := by
    intro index x y hread
    by_contra hlong
    have herror : readBack [(index, .timestamp x)] x = .error (.unreadable index .timestamp) := by
      have hfind : decide (TextColumn.timestamp x).IsReadable = false := decide_eq_false hlong
      rw [readBack, List.find?_cons_of_pos (by simp [hfind])]
      rfl
    rw [herror] at hread
    cases hread
  unfold Row.message at h
  iterate 6 obtain ⟨_, _, h⟩ := bind_eq_ok_iff.1 h
  obtain ⟨_, hserver, h⟩ := bind_eq_ok_iff.1 h
  obtain ⟨_, hlocal, -⟩ := bind_eq_ok_iff.1 h
  rw [Row.instant?_of_cell (t := m.createdAt) rfl] at hserver
  rw [Row.instant?_of_cell (t := m.createdLocallyAt) rfl] at hlocal
  intro t ht
  rcases Option.or_eq_some_iff.1 ht with ht | ⟨-, ht⟩
  · exact hcolumn hserver t ht
  · exact hcolumn hlocal t ht

/-- **Rows sort as their messages do**, if these have different ids and are read back. -/
theorem precedes_of_newerFirst {a b a' b' : Message} (ha : a.toRow.message = .ok a')
    (hb : b.toRow.message = .ok b') (hids : a.id ≠ b.id)
    (h : a.toRow.newerFirst b.toRow = true) : a.Precedes b := by
  have hya := hasShortYear_of_read ha
  have hyb := hasShortYear_of_read hb
  rw [Row.newerFirst_iff, sentText?_toRow, sentText?_toRow, isLater_ofInstant?_iff hya hyb,
    ofInstant?_inj hya hyb] at h
  rcases h with hlater | ⟨hsame, hkey⟩
  · exact .inl hlater
  · refine .inr ⟨hsame, Text.lt_iff_bytes_lt.1 ?_⟩
    rcases List.le_iff_lt_or_eq.1 hkey with hlt | heq
    · exact hlt
    · exact absurd (String.toList_inj.1 heq).symm hids

end Message

/-! ## Histories -/

/-- All messages of a channel among those that were written last under their ids, in the order of
its history. -/
structure IsHistory (written : List Message) (cid : String) (history : List Message) : Prop where
  mem_iff : ∀ m, m ∈ history ↔ lastOfKey written m.id = some m ∧ m.cid = cid
  ordered : history.Pairwise Message.Precedes

namespace Database

variable {db : Database} {written : List Message}

/-- The rows of a channel in the order of its history are those of the messages in it, if all rows
can be read. -/
theorem exists_history_of_rows (h : db.messages.IsMapOf Message.toRow written)
    (hread : ∀ r ∈ db.messages.rows, ∃ m, r.message = .ok m) (cid : String) :
    ∃ history, IsHistory written cid history ∧
      (db.messages.rows.filter fun r => r.messageChannel == .text cid).mergeSort Row.newerFirst
        = history.map Message.toRow := by
  let rows := (db.messages.rows.filter fun r => r.messageChannel == .text cid).mergeSort
    Row.newerFirst
  have hmem : ∀ r, r ∈ rows ↔ r ∈ db.messages.rows ∧ r.messageChannel = .text cid := fun r => by
    rw [List.mem_mergeSort, List.mem_filter, beq_iff_eq]
  have hrows := h.map_toRow fun r hr => ((hmem r).1 hr).1
  let history := rows.filterMap fun r => lastOfKey written (key r)
  refine ⟨history, ⟨fun m => ?_, ?_⟩, hrows.symm⟩
  · rw [List.mem_filterMap]
    constructor
    · rintro ⟨r, hr, hlast⟩
      -- the row is that of `m`, and so are its key and its channel
      obtain ⟨hrow, hcid⟩ := (hmem r).1 hr
      have hget := Table.get?_of_mem hrow
      rw [h.get?_eq, hlast] at hget
      obtain rfl : m.toRow = r := Option.some.inj hget
      exact ⟨hlast, Cell.text.inj hcid⟩
    · rintro ⟨hlast, hcid⟩
      refine ⟨m.toRow, (hmem m.toRow).2 ⟨?_, congrArg Cell.text hcid⟩, hlast⟩
      refine Table.mem_of_get? (k := m.id) ?_
      rw [h.get?_eq, hlast, Option.map_some]
  · -- the rows are sorted, and their keys are distinct
    have hsorted : rows.Pairwise fun a b => a.newerFirst b = true :=
      List.pairwise_mergeSort Row.newerFirst_trans Row.newerFirst_total _
    have hkeys : (rows.map key).Nodup := by
      have hperm := (List.mergeSort_perm
        (db.messages.rows.filter fun r => r.messageChannel == .text cid) Row.newerFirst).map key
      exact hperm.nodup_iff.2 ((db.messages.ascending.sublist List.filter_sublist).nodup_keys)
    have hboth := hsorted.and (List.pairwise_map.1 hkeys)
    rw [← hrows] at hboth
    refine (List.pairwise_map.1 hboth).imp_of_mem fun {a b} ha hb hab => ?_
    have hlegible : ∀ m ∈ history, ∃ m', m.toRow.message = .ok m' := by
      intro m hm
      have hrow : m.toRow ∈ rows := hrows ▸ List.mem_map_of_mem hm
      exact hread _ ((hmem m.toRow).1 hrow).1
    obtain ⟨a', ha'⟩ := hlegible a ha
    obtain ⟨b', hb'⟩ := hlegible b hb
    exact Message.precedes_of_newerFirst ha' hb' hab.2 hab.1

/-- The same, if all that was written is read back. -/
theorem exists_history (h : db.messages.IsMapOf Message.toRow written)
    (hread : ∀ m ∈ written, m.toRow.message = .ok m.withUserIds) (cid : String) :
    ∃ history, IsHistory written cid history ∧
      (db.messages.rows.filter fun r => r.messageChannel == .text cid).mergeSort Row.newerFirst
        = history.map Message.toRow := by
  refine exists_history_of_rows h (fun r hr => ?_) cid
  have hget := Table.get?_of_mem hr
  rw [h.get?_eq] at hget
  obtain ⟨m, hlast, rfl⟩ := Option.map_eq_some_iff.1 hget
  exact ⟨_, hread m (mem_of_lastOfKey hlast)⟩

theorem not_isLater_of_precedes {a b : Message} (h : a.Precedes b) :
    ¬IsLater b.effectiveCreatedAt a.effectiveCreatedAt := by
  rintro ⟨t, ht, hlater⟩
  have hirrefl : ∀ t : Instant, ¬t < t := fun t => Int.lt_irrefl t.rank
  rcases h with ⟨s, hs, hnewer⟩ | ⟨hsame, -⟩
  · exact hirrefl s (Int.lt_trans (hlater s hs) (hnewer t ht))
  · exact hirrefl t (hlater t (hsame ▸ ht))

/-- A query gives the front of the history. -/
theorem messagesForChannel_eq {cid : String} {history : List Message}
    (hrows : (db.messages.rows.filter fun r => r.messageChannel == .text cid).mergeSort
      Row.newerFirst = history.map Message.toRow)
    (hread : ∀ m ∈ history, m.toRow.message = .ok m.withUserIds) (limit : Nat) :
    db.messagesForChannel cid limit = .ok ((atMost limit history).map Message.withUserIds) := by
  rw [messagesForChannel, hrows, atMost_map, readRows_eq_ok_iff, List.map_map, List.map_map]
  exact List.map_congr_left fun m hm => hread m ((atMost_sublist limit history).subset hm)

/-- **The history of a channel is really newest first.** Whatever has been written to a new
database, if its messages are read back: a query gives the first messages of the history, as many as
the limit says, and nothing that it leaves out is newer than what it gives. A limit that a signed
word of 64 bits cannot hold is none, which makes a difference only to a channel with more messages
than the limit. -/
theorem newest_first (path : Option String) (calls : List DatabaseCall)
    (hread : ∀ m ∈ (DatabaseCall.written calls).messages, m.toRow.message = .ok m.withUserIds)
    (cid : String) (limit : Nat) :
    ∃ history, IsHistory (DatabaseCall.written calls).messages cid history ∧
      (limit < 0x8000_0000_0000_0000 ∨ history.length ≤ limit →
        (DatabaseCall.runAll calls (create path)).messagesForChannel cid limit
          = .ok ((history.take (min limit history.length)).map Message.withUserIds)) ∧
      (0x8000_0000_0000_0000 ≤ limit →
        (DatabaseCall.runAll calls (create path)).messagesForChannel cid limit
          = .ok (history.map Message.withUserIds)) ∧
      ∀ found, (DatabaseCall.runAll calls (create path)).messagesForChannel cid limit = .ok found →
        ∀ a ∈ found, ∀ b ∈ history, b.withUserIds ∉ found →
          ¬IsLater b.effectiveCreatedAt a.effectiveCreatedAt := by
  have hmaps := (DatabaseCall.keeps_runAll (keeps_create path) calls).maps
  obtain ⟨history, hhistory, hrows⟩ := exists_history hmaps.messages hread cid
  have hselected := messagesForChannel_eq hrows
    (fun m hm => hread m (mem_of_lastOfKey ((hhistory.mem_iff m).1 hm).1)) limit
  rw [hselected]
  refine ⟨history, hhistory, fun hlimit => ?_, fun hlimit => ?_,
    fun found hfound a ha b hb hout => ?_⟩
  · congr 2
    unfold atMost
    split
    · exact List.take_eq_take_min
    · next hlarge =>
      have hall : history.length ≤ limit := hlimit.resolve_left hlarge
      rw [Nat.min_eq_right hall, List.take_length]
  · unfold atMost
    rw [if_neg (by omega)]
  · -- what is left out comes after the front of the history
    obtain rfl := Except.ok.inj hfound
    obtain ⟨m, hm, rfl⟩ := List.mem_map.1 ha
    obtain ⟨n, hn⟩ : ∃ n, atMost limit history = history.take n := by
      unfold atMost
      split
      · exact ⟨limit, rfl⟩
      · exact ⟨history.length, List.take_length.symm⟩
    have horder := hhistory.ordered
    rw [← List.take_append_drop n history] at horder hb
    rw [hn] at hm hout
    have hbehind : b ∈ history.drop n :=
      (List.mem_append.1 hb).resolve_left fun hb => hout (List.mem_map_of_mem hb)
    exact not_isLater_of_precedes ((List.pairwise_append.1 horder).2.2 m hm b hbehind)

/-- A message of a channel, with the time of the server and that of the local clock. -/
def messageAt (id : String) (createdAt createdLocallyAt : Option Instant) : Message :=
  { (default : Message) with id, cid := "team:a", createdAt, createdLocallyAt }

/-- The second after a leap second is over. -/
def afterLeapSecond : Instant := ⟨⟨2017, 1, 1, by decide⟩, 0, 0, 1, 0, by decide⟩

/-- Three messages of a channel: one without a time, and two around a leap second, the first of
which has only the time of the local clock. -/
def aroundLeapSecond : List Message :=
  [messageAt "m1" none none, messageAt "m2" none (some leapSecond),
    messageAt "m3" (some afterLeapSecond) none]

/-- A limit of one gives the message after the leap second. -/
theorem newest_first_aroundLeapSecond :
    (DatabaseCall.runAll [.putMessages aroundLeapSecond] (create none)).messagesForChannel
      "team:a" 1 = .ok [(messageAt "m3" (some afterLeapSecond) none).withUserIds] := by
  have hread : ∀ m ∈ aroundLeapSecond, m.toRow.message = .ok m.withUserIds := by
    refine List.forall_mem_cons.2 ⟨?_, List.forall_mem_cons.2 ⟨?_, List.forall_mem_singleton.2 ?_⟩⟩
    all_goals rfl
  obtain ⟨history, hhistory, hfirst, -, hnewest⟩ :=
    newest_first none [.putMessages aroundLeapSecond] hread "team:a" 1
  have hlast : messageAt "m3" (some afterLeapSecond) none ∈ history :=
    (hhistory.mem_iff _).2 ⟨rfl, rfl⟩
  have hfound := hfirst (.inl (by decide))
  cases history with
  | nil => exact absurd hlast List.not_mem_nil
  | cons m rest =>
      have hone : (m :: rest).take (min 1 (m :: rest).length) = [m] := by simp
      rw [hone] at hfound
      have holder : m.id ≠ "m3" →
          ¬IsLater (some afterLeapSecond) m.effectiveCreatedAt := by
        intro hid
        refine hnewest _ hfound m.withUserIds List.mem_cons_self _ hlast fun hin => ?_
        exact hid (congrArg Message.id (List.mem_singleton.1 hin)).symm
      -- the front of the history is one of the three, and the other two are older
      have hm : m ∈ aroundLeapSecond :=
        mem_of_lastOfKey ((hhistory.mem_iff m).1 List.mem_cons_self).1
      simp only [aroundLeapSecond, List.mem_cons, List.not_mem_nil, or_false] at hm
      rcases hm with rfl | rfl | rfl
      · exact absurd ⟨afterLeapSecond, rfl, fun t ht => nomatch ht⟩ (holder (by decide))
      · have hbefore : leapSecond < afterLeapSecond := by decide
        exact absurd ⟨afterLeapSecond, rfl, fun t ht => Option.some.inj ht ▸ hbefore⟩
          (holder (by decide))
      · exact hfound

end Database

end OfflineChat
