import OfflineChat.Keyed

/-! # Bounded caches

A cache holds at most a fixed number of snapshots by key and gives up the one that was used longest
ago when it is full. Main definitions: `Cache`, whose entries are listed by recency, latest first;
`get?` and `put`, which make an entry the latest; `peek?`, which does not; and `EntityCache`, a
cache whose snapshots are filed under their own keys. Main statements: what `get?` and `peek?` give
(`get?_fst`, `peek?_put_self`, `peek?_touch`), and which entry a full cache gives up
(`entries_put`). -/

set_option autoImplicit false

namespace OfflineChat

/-- A cache of at most `capacity` snapshots, latest first. -/
structure Cache (α : Type) where
  capacity : Nat
  entries : List (String × α)
  capacity_pos : 0 < capacity
  nodup : (entries.map Prod.fst).Nodup
  length_le : entries.length ≤ capacity

namespace Cache

variable {α : Type}

/-- The entries without the one of this key. -/
def dropKey (k : String) (entries : List (String × α)) : List (String × α) :=
  entries.filter fun e => e.1 != k

theorem dropKey_sublist (k : String) (entries : List (String × α)) :
    (dropKey k entries).Sublist entries := List.filter_sublist

theorem not_mem_dropKey (k : String) (entries : List (String × α)) :
    k ∉ (dropKey k entries).map Prod.fst := by
  simp [dropKey]

theorem dropKey_of_not_mem {k : String} {entries : List (String × α)}
    (h : k ∉ entries.map Prod.fst) : dropKey k entries = entries := by
  refine List.filter_eq_self.2 fun e he => ?_
  simp only [bne_iff_ne]
  exact fun hk => h (hk ▸ List.mem_map_of_mem he)

/-- A cache without entries; capacity 0 counts as 1. -/
def new (capacity : Nat) : Cache α where
  capacity := max capacity 1
  entries := []
  capacity_pos := by omega
  nodup := by simp
  length_le := by simp

/-- The number of entries. -/
def size (c : Cache α) : Nat := c.entries.length

/-- Whether there is no entry. -/
def isEmpty (c : Cache α) : Bool := c.entries.isEmpty

/-- The keys that have entries, latest first. -/
def keys (c : Cache α) : List String := c.entries.map Prod.fst

/-- The snapshot of a key; recency stays as it is. -/
def peek? (c : Cache α) (k : String) : Option α :=
  (c.entries.find? fun e => e.1 == k).map Prod.snd

/-- Whether a key has an entry. -/
def contains (c : Cache α) (k : String) : Bool := (c.peek? k).isSome

/-- The entries with the one of this key in front. -/
def promote (k : String) (entries : List (String × α)) : List (String × α) :=
  (entries.filter fun e => e.1 == k) ++ dropKey k entries

theorem promote_perm (k : String) (entries : List (String × α)) :
    (promote k entries).Perm entries := by
  have := List.filter_append_perm (fun e : String × α => e.1 == k) entries
  simpa [promote, dropKey, bne] using this

/-- The entry of a key, if there is one, becomes the latest. -/
def touch (c : Cache α) (k : String) : Cache α :=
  { c with
    entries := promote k c.entries
    nodup := ((promote_perm k c.entries).map _).nodup_iff.2 c.nodup
    length_le := (promote_perm k c.entries).length_eq ▸ c.length_le }

/-- The snapshot of a key, whose entry becomes the latest. -/
def get? (c : Cache α) (k : String) : Option α × Cache α := (c.peek? k, c.touch k)

/-- Files a snapshot under a key as the latest entry; a full cache gives up its oldest entry. -/
def put (c : Cache α) (k : String) (a : α) : Cache α :=
  { c with
    entries := (k, a) :: (dropKey k c.entries).take (c.capacity - 1)
    nodup := by
      rw [List.map_cons, List.nodup_cons]
      refine ⟨fun h => not_mem_dropKey k c.entries ?_, ?_⟩
      · exact ((List.take_sublist _ _).map _).subset h
      · exact c.nodup.sublist
          (((List.take_sublist _ _).trans (dropKey_sublist k _)).map _)
    length_le := by
      have := c.capacity_pos
      simp only [List.length_cons, List.length_take]
      omega }

/-- Files snapshots one after another. -/
def putAll (c : Cache α) (entries : List (String × α)) : Cache α :=
  entries.foldl (fun c e => c.put e.1 e.2) c

/-- Takes the entry of a key out; gives its snapshot. -/
def remove (c : Cache α) (k : String) : Option α × Cache α :=
  (c.peek? k,
    { c with
      entries := dropKey k c.entries
      nodup := c.nodup.sublist ((dropKey_sublist k _).map _)
      length_le := Nat.le_trans (dropKey_sublist k _).length_le c.length_le })

/-- Takes all entries out. -/
def clear (c : Cache α) : Cache α :=
  { c with
    entries := []
    nodup := by simp
    length_le := by simp }

/-! ## What is held -/

@[ext] theorem ext {c d : Cache α} (hc : c.capacity = d.capacity) (he : c.entries = d.entries) :
    c = d := by
  cases c
  cases d
  simp only at hc he
  subst hc he
  rfl

@[simp] theorem peek?_new (capacity : Nat) (k : String) : (new capacity : Cache α).peek? k = none :=
  rfl

@[simp] theorem peek?_clear (c : Cache α) (k : String) : c.clear.peek? k = none := rfl

@[simp] theorem get?_fst (c : Cache α) (k : String) : (c.get? k).1 = c.peek? k := rfl

@[simp] theorem get?_snd (c : Cache α) (k : String) : (c.get? k).2 = c.touch k := rfl

theorem peek?_eq_some_iff {c : Cache α} {k : String} {a : α} :
    c.peek? k = some a ↔ (k, a) ∈ c.entries := by
  have hn := c.nodup
  unfold peek?
  generalize c.entries = entries at hn
  induction entries with
  | nil => simp
  | cons e es ih =>
      rw [List.map_cons, List.nodup_cons] at hn
      rw [List.find?_cons]
      by_cases he : e.1 = k
      · simp only [he, beq_self_eq_true, Option.map_some, Option.some.injEq, List.mem_cons]
        constructor
        · rintro rfl
          exact .inl (by rw [← he])
        · rintro (h | h)
          · rw [← h]
          · exact absurd (List.mem_map_of_mem (f := Prod.fst) h) (he ▸ hn.1)
      · have hb : (e.1 == k) = false := by simpa using he
        simp only [hb]
        refine (ih hn.2).trans ?_
        rw [List.mem_cons]
        constructor
        · exact .inr
        · rintro (h | h)
          · exact absurd (by rw [← h]) he
          · exact h

theorem contains_iff {c : Cache α} {k : String} : c.contains k ↔ k ∈ c.keys := by
  unfold contains keys
  rw [Option.isSome_iff_exists, List.mem_map]
  constructor
  · rintro ⟨a, ha⟩
    exact ⟨(k, a), peek?_eq_some_iff.1 ha, rfl⟩
  · rintro ⟨⟨_, a⟩, he, rfl⟩
    exact ⟨a, peek?_eq_some_iff.2 he⟩

@[simp] theorem peek?_touch (c : Cache α) (k j : String) : (c.touch k).peek? j = c.peek? j := by
  refine Option.ext fun a => ?_
  rw [peek?_eq_some_iff, peek?_eq_some_iff]
  exact (promote_perm k c.entries).mem_iff

theorem entries_put (c : Cache α) (k : String) (a : α) :
    (c.put k a).entries = (k, a) :: (dropKey k c.entries).take (c.capacity - 1) := rfl

@[simp] theorem peek?_put_self (c : Cache α) (k : String) (a : α) :
    (c.put k a).peek? k = some a := by
  simp [peek?, entries_put]

@[simp] theorem capacity_touch (c : Cache α) (k : String) : (c.touch k).capacity = c.capacity := rfl

@[simp] theorem capacity_put (c : Cache α) (k : String) (a : α) :
    (c.put k a).capacity = c.capacity := rfl

end Cache

/-! ## Caches of entities -/

/-- A cache of things with keys, each filed under its own. -/
structure EntityCache (α : Type) [Keyed α] extends Cache α where
  filed : ∀ e ∈ entries, key e.2 = e.1

namespace EntityCache

variable {α : Type} [Keyed α]

/-- A cache without entries; capacity 0 counts as 1. -/
def new (capacity : Nat) : EntityCache α where
  toCache := .new capacity
  filed := by simp [Cache.new]

/-- The entry of a key, if there is one, becomes the latest. -/
def touch (c : EntityCache α) (k : String) : EntityCache α where
  toCache := c.toCache.touch k
  filed e he := c.filed e ((Cache.promote_perm k c.entries).mem_iff.1 he)

/-- The snapshot of a key, whose entry becomes the latest. -/
def get? (c : EntityCache α) (k : String) : Option α × EntityCache α := (c.peek? k, c.touch k)

/-- Files a snapshot as the latest entry; a full cache gives up its oldest entry. -/
def put (c : EntityCache α) (a : α) : EntityCache α where
  toCache := c.toCache.put (key a) a
  filed e he := by
    rcases List.mem_cons.1 he with rfl | he
    · rfl
    · exact c.filed e ((Cache.dropKey_sublist _ _).subset ((List.take_sublist _ _).subset he))

/-- Files snapshots one after another. -/
def putAll (c : EntityCache α) (as : List α) : EntityCache α := as.foldl put c

/-- Takes the entry of a key out. -/
def remove (c : EntityCache α) (k : String) : EntityCache α where
  toCache := (c.toCache.remove k).2
  filed e he := c.filed e ((Cache.dropKey_sublist k _).subset he)

/-- Takes the entries of all these keys out. -/
def removeAll (c : EntityCache α) (keys : List String) : EntityCache α := keys.foldl remove c

/-- Takes all entries out. -/
def clear (c : EntityCache α) : EntityCache α where
  toCache := c.toCache.clear
  filed := by simp [Cache.clear]

/-- Looks distinct keys up one after another: the snapshots that were found, in order, and the keys
that were not. -/
def getAll (c : EntityCache α) : List String → (List α × List String) × EntityCache α
  | [] => (([], []), c)
  | k :: ks =>
      match c.get? k with
      | (some a, c) =>
          let ((hits, misses), c) := c.getAll ks
          ((a :: hits, misses), c)
      | (none, c) =>
          let ((hits, misses), c) := c.getAll ks
          ((hits, k :: misses), c)

theorem key_of_peek? {c : EntityCache α} {k : String} {a : α} (h : c.peek? k = some a) :
    key a = k :=
  c.filed _ (Cache.peek?_eq_some_iff.1 h)

@[simp] theorem peek?_touch (c : EntityCache α) (k j : String) :
    (c.touch k).peek? j = c.peek? j :=
  Cache.peek?_touch c.toCache k j

end EntityCache

end OfflineChat
