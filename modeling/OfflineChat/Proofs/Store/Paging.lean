import OfflineChat.Proofs.Store.RowReading
import OfflineChat.Proofs.Store.Selection
import OfflineChat.Proofs.Text.ByteOrder

/-! # Paging by key

A query by status gives a page: the first rows of the status whose keys lie above a cursor. Each page
is followed by the one above its last key, until one is not full. Main definitions: `Table.IsAbove`,
the rows of a status above a cursor in the order of the bytes of their keys; `IsReading`, what a query
gives for the rows it selects; `PagesFrom`, pages one after another; and `IsPagedByKey`, which says
that these give each row once. Main statement: messages and channels are paged by key
(`Database.paged_by_key`), because what lies above the last key of a page are the rows behind it
(`Table.withStatus_of_front`). -/

set_option autoImplicit false

namespace OfflineChat

variable {α : Type} [Keyed α]

/-! ## What a page is -/

/-- All rows of a status above a cursor, each of them once, in the order of the bytes of their
keys. -/
structure Table.IsAbove (t : Table Row) (cell : Row → Cell) (status : SyncStatus)
    (after : Option String) (rows : List Row) : Prop where
  mem_iff : ∀ r, r ∈ rows ↔
    r ∈ t.rows ∧ cell r = .integer status.code ∧ ∀ k ∈ after, Text.bytes k < Text.bytes (key r)
  ordered : rows.Pairwise fun a b => Text.bytes (key a) < Text.bytes (key b)

/-- What a query gives for the rows it selects: all of them, or the error of the first one that
cannot be read. -/
def IsReading {β : Type} (read : Row → Except StoreError β) (rows : List Row) :
    Except StoreError (List β) → Prop
  | .ok found => rows.map read = found.map .ok
  | .error e => ∃ before r behind, rows = before ++ r :: behind ∧
      (∀ a ∈ before, ∃ x, read a = .ok x) ∧ read r = .error e

/-- Pages one after another, each selected above the last key of the one before it; the first one
with less than `limit` items is the last. -/
inductive PagesFrom (select : Option String → Except StoreError (List α)) (limit : Nat) :
    Option String → List (List α) → Prop
  | last {after : Option String} {page : List α} (hpage : select after = .ok page)
      (hshort : page.length < limit) : PagesFrom select limit after [page]
  | next {after : Option String} {page : List α} {pages : List (List α)}
      (hpage : select after = .ok page) (hfull : limit ≤ page.length)
      (hnext : PagesFrom select limit (page.getLast?.map key) pages) :
      PagesFrom select limit after (page :: pages)

/-- A query by status is paged by key. A limit that a signed word of 64 bits cannot hold is none,
which makes a difference only to a status with more rows than the limit. -/
structure IsPagedByKey (t : Table Row) (cell : Row → Cell) (read : Row → Except StoreError α)
    (select : SyncStatus → Option String → Nat → Except StoreError (List α)) : Prop where
  /-- A page is read from the first rows above the cursor, as many as the limit says. -/
  page : ∀ status after limit, ∃ rows, t.IsAbove cell status after rows ∧
    (limit < 0x8000_0000_0000_0000 ∨ rows.length ≤ limit →
      IsReading read (rows.take (min limit rows.length)) (select status after limit)) ∧
    (0x8000_0000_0000_0000 ≤ limit → IsReading read rows (select status after limit))
  /-- If the rows above a cursor can be read, the pages from there on are finitely many, and they
  give each row once. -/
  walk : ∀ status after limit, 1 ≤ limit → ∃ rows, t.IsAbove cell status after rows ∧
    ((∀ r ∈ rows, ∃ a, read r = .ok a) →
      ∃ pages, (∀ other, PagesFrom (select status · limit) limit after other ↔ other = pages) ∧
        rows.map read = pages.flatten.map .ok ∧ pages.length ≤ rows.length / limit + 1)

/-! ## The rows of a page -/

namespace Table

variable {t : Table Row} {cell : Row → Cell} {status : SyncStatus} {after : Option String}

theorem isAbove_withStatus (t : Table Row) (cell : Row → Cell) (status : SyncStatus)
    (after : Option String) : t.IsAbove cell status after (t.withStatus cell status after) where
  mem_iff r := by
    rw [mem_withStatus_iff, mem_rows_iff]
    simp only [Text.lt_iff_bytes_lt]
  ordered := (ascending_withStatus t cell status after).imp Text.lt_iff_bytes_lt.1

/-- **Above the last key of a page lie the rows behind it.** -/
theorem withStatus_of_front {d : Nat} {k : String}
    (hk : ((t.withStatus cell status after).take d).getLast?.map key = some k) :
    t.withStatus cell status (some k) = (t.withStatus cell status after).drop d := by
  have hrows := ascending_withStatus t cell status after
  -- the last row of the page lies above the cursor itself
  have hcursor : ∀ k' ∈ after, k' < k := by
    obtain ⟨b, hb, rfl⟩ := Option.map_eq_some_iff.1 hk
    exact (mem_withStatus_iff.1 (List.mem_of_mem_take (List.mem_of_getLast? hb))).2.2
  refine ascending_ext (ascending_withStatus t cell status (some k))
    (hrows.sublist (List.drop_sublist _ _)) fun r => ?_
  constructor
  · intro hr
    obtain ⟨hget, hcell, hlt⟩ := mem_withStatus_iff.1 hr
    have hkr : k < key r := hlt k rfl
    have hmem : r ∈ t.withStatus cell status after :=
      mem_withStatus_iff.2 ⟨hget, hcell, fun k' hk' => String.lt_trans (hcursor k' hk') hkr⟩
    exact (hrows.mem_drop_iff hk hmem).2 hkr
  · intro hr
    have hmem := List.mem_of_mem_drop hr
    obtain ⟨hget, hcell, -⟩ := mem_withStatus_iff.1 hmem
    refine mem_withStatus_iff.2 ⟨hget, hcell, fun k' hk' => ?_⟩
    exact Option.some.inj hk' ▸ (hrows.mem_drop_iff hk hmem).1 hr

end Table

/-- A limit takes a front of the items. -/
theorem atMost_eq_take {β : Type} (limit : Nat) (items : List β) :
    atMost limit items =
      items.take (if limit < 0x8000_0000_0000_0000 then limit else items.length) := by
  unfold atMost
  split
  · rfl
  · exact List.take_length.symm

/-- A page that is not full leaves nothing out. -/
theorem atMost_of_short {β : Type} {limit : Nat} {items : List β}
    (h : (atMost limit items).length < limit) : atMost limit items = items := by
  rw [atMost_eq_take] at h ⊢
  refine List.take_of_length_le ?_
  rw [List.length_take] at h
  split at h <;> split <;> omega

/-! ## Reading a page -/

namespace Database

theorem isReading_readRows {β : Type} (read : Row → Except StoreError β) (rows : List Row) :
    IsReading read rows (readRows read rows) := by
  induction rows with
  | nil => rfl
  | cons r rows ih =>
      cases hr : read r with
      | error e =>
          have hrows : readRows read (r :: rows) = .error e := by rw [readRows, hr]; rfl
          rw [hrows]
          exact ⟨[], r, rows, rfl, fun a ha => absurd ha List.not_mem_nil, hr⟩
      | ok a =>
          cases hrest : readRows read rows with
          | error e =>
              have hrows : readRows read (r :: rows) = .error e := by rw [readRows, hr, hrest]; rfl
              rw [hrest] at ih
              obtain ⟨before, b, behind, rfl, hbefore, hb⟩ := ih
              rw [hrows]
              exact ⟨r :: before, b, behind, rfl,
                List.forall_mem_cons.2 ⟨⟨a, hr⟩, hbefore⟩, hb⟩
          | ok as =>
              have hrows : readRows read (r :: rows) = .ok (a :: as) := by
                rw [readRows, hr, hrest]; rfl
              rw [hrest] at ih
              rw [hrows]
              exact congrArg₂ List.cons hr ih

end Database

/-! ## Pages one after another -/

/-- There is only one way on from a cursor. -/
theorem PagesFrom.unique {select : Option String → Except StoreError (List α)} {limit : Nat}
    {after : Option String} {pages other : List (List α)} (h : PagesFrom select limit after pages)
    (hother : PagesFrom select limit after other) : other = pages := by
  induction h generalizing other with
  | last hpage hshort =>
      cases hother with
      | last hpage' _ => rw [Except.ok.inj (hpage'.symm.trans hpage)]
      | next hpage' hfull _ =>
          rw [Except.ok.inj (hpage'.symm.trans hpage)] at hfull
          exact absurd hshort (Nat.not_lt.2 hfull)
  | next hpage hfull _ ih =>
      cases hother with
      | last hpage' hshort =>
          rw [Except.ok.inj (hpage'.symm.trans hpage)] at hshort
          exact absurd hshort (Nat.not_lt.2 hfull)
      | next hpage' _ hnext =>
          obtain rfl := Except.ok.inj (hpage'.symm.trans hpage)
          rw [ih hnext]

namespace Database

variable {read : Row → Except StoreError α}

/-- The last key of a page is that of the last row it was read from. -/
theorem lastKey_of_readRows (hkey : ∀ {r : Row} {a : α}, read r = .ok a → key a = key r)
    {rows : List Row} {page : List α} (h : readRows read rows = .ok page) :
    page.getLast?.map key = rows.getLast?.map key := by
  have hlast := congrArg List.getLast? (readRows_eq_ok_iff.1 h)
  rw [List.getLast?_map, List.getLast?_map] at hlast
  cases hrow : rows.getLast? with
  | none =>
      rw [hrow] at hlast
      rw [Option.map_eq_none_iff.1 hlast.symm]
      rfl
  | some r =>
      rw [hrow] at hlast
      obtain ⟨a, ha, hread⟩ := Option.map_eq_some_iff.1 hlast.symm
      rw [ha, Option.map_some, Option.map_some, hkey hread.symm]

/-- The pages from a cursor on give the rows above it. The induction is on their number: each full
page takes some of them away. -/
theorem exists_pagesFrom (hkey : ∀ {r : Row} {a : α}, read r = .ok a → key a = key r)
    (t : Table Row) (cell : Row → Cell) (status : SyncStatus) {limit : Nat} (hlimit : 1 ≤ limit)
    (after : Option String)
    (hread : ∀ r ∈ t.withStatus cell status after, ∃ a, read r = .ok a) :
    ∃ pages,
      PagesFrom (fun k => readRows read (atMost limit (t.withStatus cell status k))) limit after
        pages ∧
      (t.withStatus cell status after).map read = pages.flatten.map .ok ∧
      pages.length ≤ (t.withStatus cell status after).length / limit + 1 := by
  induction hn : (t.withStatus cell status after).length using Nat.strongRecOn
    generalizing after with
  | _ n ih =>
  generalize hrows : t.withStatus cell status after = rows at hread hn
  obtain ⟨page, hpage⟩ := exists_readRows fun r hr => hread r ((atMost_sublist limit rows).subset hr)
  have hselected : readRows read (atMost limit (t.withStatus cell status after)) = .ok page := by
    rw [hrows, hpage]
  have hlength : page.length = (atMost limit rows).length := by
    simpa using congrArg List.length (readRows_eq_ok_iff.1 hpage).symm
  by_cases hshort : page.length < limit
  · rw [atMost_of_short (hlength ▸ hshort), readRows_eq_ok_iff] at hpage
    exact ⟨[page], .last hselected hshort, by simpa using hpage, by simp⟩
  · have hfull : limit ≤ page.length := Nat.not_lt.1 hshort
    -- the page takes `d` rows, at least one of them
    rw [atMost_eq_take] at hpage hlength
    generalize hd : (if limit < 0x8000_0000_0000_0000 then limit else rows.length) = d at *
    rw [List.length_take] at hlength
    have hcursor := lastKey_of_readRows hkey hpage
    obtain ⟨k, hk⟩ : ∃ k, (rows.take d).getLast?.map key = some k := by
      have hne : rows.take d ≠ [] := by
        rw [← List.length_pos_iff, List.length_take]
        omega
      exact ⟨key ((rows.take d).getLast hne), by rw [List.getLast?_eq_some_getLast hne]; rfl⟩
    have hbehind : t.withStatus cell status (some k) = rows.drop d := by
      rw [← hrows] at hk ⊢
      exact Table.withStatus_of_front hk
    obtain ⟨pages, hpages, hflat, hcount⟩ := ih (rows.drop d).length
      (by rw [List.length_drop]; omega) (some k)
      (fun r hr => hread r (List.mem_of_mem_drop (hbehind ▸ hr))) (by rw [hbehind])
    rw [hbehind] at hflat
    refine ⟨page :: pages, .next hselected hfull (by rw [hcursor, hk]; exact hpages), ?_, ?_⟩
    · calc rows.map read
          = (rows.take d).map read ++ (rows.drop d).map read := by
            rw [← List.map_append, List.take_append_drop]
        _ = (page :: pages).flatten.map .ok := by
            rw [readRows_eq_ok_iff.1 hpage, hflat, List.flatten_cons, List.map_append]
    · have hstep : rows.length / limit = (rows.length - limit) / limit + 1 := by
        rw [← Nat.add_div_right _ hlimit, Nat.sub_add_cancel (by omega)]
      have hdrop : (rows.drop d).length / limit ≤ (rows.length - limit) / limit := by
        refine Nat.div_le_div_right ?_
        rw [List.length_drop]
        omega
      rw [List.length_cons, ← hn]
      omega

/-- A query that reads the first rows of a status above a cursor is paged by key. -/
theorem isPagedByKey_readRows (hkey : ∀ {r : Row} {a : α}, read r = .ok a → key a = key r)
    (t : Table Row) (cell : Row → Cell) :
    IsPagedByKey t cell read
      fun status after limit => readRows read (atMost limit (t.withStatus cell status after)) where
  page status after limit := by
    refine ⟨_, t.isAbove_withStatus cell status after, fun hlimit => ?_, fun hlimit => ?_⟩
    · have hfront : atMost limit (t.withStatus cell status after) =
          (t.withStatus cell status after).take
            (min limit (t.withStatus cell status after).length) := by
        unfold atMost
        split
        · exact List.take_eq_take_min
        · next hlarge => rw [Nat.min_eq_right (hlimit.resolve_left hlarge), List.take_length]
      rw [hfront]
      exact isReading_readRows read _
    · rw [atMost, if_neg (Nat.not_lt.2 hlimit)]
      exact isReading_readRows read _
  walk status after limit hlimit := by
    refine ⟨_, t.isAbove_withStatus cell status after, fun hread => ?_⟩
    obtain ⟨pages, hpages, hflat, hcount⟩ :=
      exists_pagesFrom hkey t cell status hlimit after hread
    exact ⟨pages, fun other => ⟨hpages.unique, fun h => h ▸ hpages⟩, hflat, hcount⟩

/-- **Messages and channels are paged by key.** Whatever the tables hold: a page is read from the
first rows of the status above the cursor in the order of the bytes of their keys, and if one of just
these cannot be read, nothing but its error is given. With every limit but 0, going on above the last
key of each page gives every row of the status once and ends with a page that is not full. -/
theorem paged_by_key (db : Database) :
    IsPagedByKey db.messages Row.messageStatus Row.message db.messagesByStatus ∧
      IsPagedByKey db.channels Row.channelStatus Row.channel db.channelsByStatus :=
  ⟨isPagedByKey_readRows Row.key_of_message _ _, isPagedByKey_readRows Row.key_of_channel _ _⟩

/-- Channels with these keys. -/
def channelsWith (cids : List String) : List Channel :=
  cids.map fun cid => { Channel.new "" "" with cid }

/-- The empty key comes first, a key before those that it begins, and a full page is not the last. -/
example :
    PagesFrom
      (((create none).putChannels (channelsWith ["é", "ab", "", "a"])).channelsByStatus .completed · 2)
      2 none [channelsWith ["", "a"], channelsWith ["ab", "é"], []] :=
  .next rfl (by decide) (.next rfl (by decide) (.last rfl (by decide)))

end Database

end OfflineChat
