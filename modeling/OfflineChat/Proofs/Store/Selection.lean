import OfflineChat.Store.Database

/-! # Rows put in and rows chosen

What a batch of rows does to a table, and what a query by status above a key finds afterwards. Main
statements: a batch changes the rows of its own keys and no others (`get?_putAll_of_mem`,
`get?_putAll_of_not_mem`), and a query above the last key of a rewritten prefix of the waiting rows
finds the rows after that prefix (`withStatus_putAll_take`). -/

set_option autoImplicit false

namespace OfflineChat

variable {α : Type} [Keyed α]

/-! ## Ascending lists -/

theorem Ascending.nodup_keys {rows : List α} (h : Ascending rows) : (rows.map key).Nodup := by
  rw [List.Nodup, List.pairwise_map]
  exact h.imp fun hab => String.ne_of_lt hab

theorem Ascending.sublist {xs ys : List α} (h : Ascending ys) (hs : xs.Sublist ys) :
    Ascending xs :=
  List.Pairwise.sublist hs h

/-- No item of an ascending list lies above the last one. -/
theorem Ascending.not_lt_getLast {rows : List α} (h : Ascending rows) {k : String}
    (hk : rows.getLast?.map key = some k) {a : α} (ha : a ∈ rows) : ¬k < key a := by
  obtain ⟨b, hb, rfl⟩ := Option.map_eq_some_iff.1 hk
  obtain ⟨front, rfl⟩ := List.getLast?_eq_some_iff.1 hb
  rcases List.mem_append.1 ha with ha | ha
  · have hab : key a < key b := (List.pairwise_append.1 h).2.2 a ha b (by simp)
    exact String.lt_asymm hab
  · rw [List.mem_singleton.1 ha]
    exact String.lt_irrefl _

/-- The items above the last key of a prefix of an ascending list are those after the prefix. -/
theorem Ascending.mem_drop_iff {rows : List α} (h : Ascending rows) {d : Nat} {k : String}
    (hk : (rows.take d).getLast?.map key = some k) {a : α} (ha : a ∈ rows) :
    a ∈ rows.drop d ↔ k < key a := by
  rw [← List.take_append_drop d rows] at h ha
  obtain ⟨htake, _, hcross⟩ := List.pairwise_append.1 h
  constructor
  · intro hd
    obtain ⟨b, hb, rfl⟩ := Option.map_eq_some_iff.1 hk
    exact hcross b (List.mem_of_getLast? hb) a hd
  · intro hka
    rcases List.mem_append.1 ha with hat | had
    · exact absurd hka (Ascending.not_lt_getLast htake hk hat)
    · exact had

/-! ## Batches of rows -/

namespace Table

theorem get?_putAll_of_not_mem {as : List α} {k : String} (t : Table α) (h : k ∉ as.map key) :
    (t.putAll as).get? k = t.get? k := by
  induction as generalizing t with
  | nil => rfl
  | cons a as ih =>
      rw [List.map_cons, List.mem_cons, not_or] at h
      rw [putAll_cons, ih (t.put a) h.2, get?_put_of_ne t (Ne.symm h.1)]

theorem get?_putAll_of_mem {as : List α} {a : α} (t : Table α) (hn : (as.map key).Nodup)
    (ha : a ∈ as) : (t.putAll as).get? (key a) = some a := by
  induction as generalizing t with
  | nil => exact absurd ha (by simp)
  | cons b as ih =>
      rw [List.map_cons, List.nodup_cons] at hn
      rw [putAll_cons]
      rcases List.mem_cons.1 ha with rfl | ha
      · rw [get?_putAll_of_not_mem _ hn.1, get?_put_self]
      · exact ih _ hn.2 ha

theorem putAll_append (t : Table α) (as bs : List α) :
    t.putAll (as ++ bs) = (t.putAll as).putAll bs :=
  List.foldl_append

/-- If all items with a key are the same, that item is found under the key. -/
theorem get?_putAll_of_forall {as : List α} {a : α} (t : Table α) (ha : a ∈ as)
    (h : ∀ b ∈ as, key b = key a → b = a) : (t.putAll as).get? (key a) = some a := by
  induction as generalizing t with
  | nil => exact absurd ha (by simp)
  | cons b as ih =>
      rw [putAll_cons]
      by_cases hm : a ∈ as
      · exact ih _ hm fun c hc => h c (List.mem_cons_of_mem _ hc)
      · obtain rfl : a = b := (List.mem_cons.1 ha).resolve_right hm
        have hk : key a ∉ as.map key := by
          intro hk
          obtain ⟨c, hc, hca⟩ := List.mem_map.1 hk
          exact hm (h c (List.mem_cons_of_mem _ hc) hca ▸ hc)
        rw [get?_putAll_of_not_mem _ hk, get?_put_self]

/-- The keys of a table are those under which something is found. -/
theorem mem_keys_iff {t : Table α} {k : String} : k ∈ t.rows.map key ↔ ∃ a, t.get? k = some a := by
  constructor
  · intro hk
    obtain ⟨a, ha, rfl⟩ := List.mem_map.1 hk
    exact ⟨a, get?_of_mem ha⟩
  · rintro ⟨a, ha⟩
    exact List.mem_map.2 ⟨a, mem_of_get? ha, key_of_get? ha⟩

/-- What is found after a batch is the last item of the batch with the key, if it has one. -/
theorem get?_putAll (t : Table α) (as : List α) (k : String) :
    (t.putAll as).get? k = (as.reverse.find? fun a => key a == k).or (t.get? k) := by
  induction as generalizing t with
  | nil => rfl
  | cons a as ih =>
      rw [putAll_cons, ih, get?_put, List.reverse_cons, List.find?_append, Option.or_assoc]
      congr 1
      by_cases hk : key a = k
      · simp [hk]
      · simp [hk]

/-- A batch of rows whose keys are all there adds no key. -/
theorem keys_putAll {t : Table α} {as : List α} (h : ∀ k ∈ as.map key, k ∈ t.rows.map key) :
    (t.putAll as).rows.map key = t.rows.map key := by
  have hasc : ∀ t : Table α, Ascending (t.rows.map key) := fun t =>
    List.pairwise_map.2 t.ascending
  refine ascending_ext (hasc _) (hasc t) fun k => ?_
  by_cases hk : k ∈ as.map key
  · refine iff_of_true ?_ (h k hk)
    obtain ⟨a, ha, rfl⟩ := List.mem_map.1 hk
    cases hfound : as.reverse.find? fun b => key b == key a with
    | none =>
        have := List.find?_eq_none.1 hfound a (List.mem_reverse.2 ha)
        exact absurd this (by simp)
    | some b => exact mem_keys_iff.2 ⟨b, by rw [get?_putAll, hfound]; rfl⟩
  · rw [mem_keys_iff, mem_keys_iff, get?_putAll_of_not_mem t hk]

/-! ## Rows of a status -/

variable {t : Table Row} {cell : Row → Cell} {status : SyncStatus}

theorem ascending_withStatus (t : Table Row) (cell : Row → Cell) (status : SyncStatus)
    (after : Option String) : Ascending (t.withStatus cell status after) :=
  t.ascending.sublist List.filter_sublist

theorem mem_withStatus_iff {after : Option String} {r : Row} :
    r ∈ t.withStatus cell status after ↔
      t.get? (key r) = some r ∧ cell r = .integer status.code ∧ ∀ k ∈ after, k < key r := by
  rw [withStatus, List.mem_filter, mem_rows_iff, Bool.and_eq_true, beq_iff_eq]
  cases after <;> simp

/-- **A query above the last key of a rewritten prefix finds what comes after the prefix.** The
prefix may have been rewritten with any statuses. -/
theorem withStatus_putAll_take {as : List Row} {d : Nat}
    (has : as.map key = ((t.withStatus cell status none).take d).map key) :
    (t.putAll as).withStatus cell status
        (((t.withStatus cell status none).take d).getLast?.map key) =
      (t.withStatus cell status none).drop d := by
  have hq := ascending_withStatus t cell status none
  refine ascending_ext (ascending_withStatus _ _ _ _) (hq.sublist (List.drop_sublist _ _)) ?_
  intro r
  have hmem : r ∈ t.withStatus cell status none ↔
      t.get? (key r) = some r ∧ cell r = .integer status.code := by
    simp [mem_withStatus_iff]
  rw [mem_withStatus_iff]
  generalize t.withStatus cell status none = waiting at *
  cases hl : (waiting.take d).getLast?.map key with
  | none =>
      -- an empty prefix: nothing was rewritten
      have htake : waiting.take d = [] := by
        simpa only [Option.map_eq_none_iff, List.getLast?_eq_none_iff] using hl
      have hdrop : waiting.drop d = waiting := by
        simpa only [htake, List.nil_append] using List.take_append_drop d waiting
      have hnil : as = [] := by simpa only [htake, List.map_nil, List.map_eq_nil_iff] using has
      simp [hdrop, hnil, hmem]
  | some k =>
      -- a row above the rewritten keys is as it was
      have hsame (hk : k < key r) : (t.putAll as).get? (key r) = t.get? (key r) := by
        refine get?_putAll_of_not_mem t fun hr => ?_
        rw [has] at hr
        obtain ⟨b, hb, hbr⟩ := List.mem_map.1 hr
        exact (hq.sublist (List.take_sublist _ _)).not_lt_getLast hl hb (hbr ▸ hk)
      constructor
      · rintro ⟨hget, hcell, hk⟩
        have hk : k < key r := hk k rfl
        have hr : r ∈ waiting := hmem.2 ⟨hsame hk ▸ hget, hcell⟩
        exact (hq.mem_drop_iff hl hr).2 hk
      · intro hd
        have hr : r ∈ waiting := List.mem_of_mem_drop hd
        have hk : k < key r := (hq.mem_drop_iff hl hr).1 hd
        obtain ⟨hget, hcell⟩ := hmem.1 hr
        exact ⟨(hsame hk).trans hget, hcell, by simpa using hk⟩

end Table

theorem atMost_sublist {β : Type} (limit : Nat) (items : List β) :
    (atMost limit items).Sublist items := by
  unfold atMost
  split
  · exact List.take_sublist _ _
  · exact List.Sublist.refl _

end OfflineChat
