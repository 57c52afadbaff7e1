import OfflineChat.Keyed

/-! # Keyed tables

A table holds at most one row per key and lists its rows by ascending key. Main definitions:
`Table`, `Table.get?`, `Table.put` and `Table.putAll`. Main statements: a row put in is found under
its key and nothing else changes (`get?_put_self`, `get?_put_of_ne`), and two tables that answer
alike are equal (`ext_get?`). -/

set_option autoImplicit false

namespace OfflineChat

variable {α : Type} [Keyed α]

/-! ## Lists with ascending keys -/

/-- Each key is smaller than those after it. -/
def Ascending (rows : List α) : Prop := rows.Pairwise fun a b => key a < key b

/-- Puts a row in its place; a row with the same key gives way. -/
def putRow (a : α) : List α → List α
  | [] => [a]
  | b :: rows =>
      if key a < key b then a :: b :: rows
      else if key b < key a then b :: putRow a rows
      else a :: rows

theorem mem_putRow {a c : α} {rows : List α} (h : c ∈ putRow a rows) : c = a ∨ c ∈ rows := by
  induction rows with
  | nil => simpa [putRow] using h
  | cons b rows ih =>
      unfold putRow at h
      split at h
      · simpa using h
      · split at h
        · rcases List.mem_cons.1 h with rfl | h
          · exact .inr (List.mem_cons_self ..)
          · exact (ih h).imp_right (List.mem_cons_of_mem _)
        · rcases List.mem_cons.1 h with rfl | h
          · exact .inl rfl
          · exact .inr (List.mem_cons_of_mem _ h)

theorem key_eq_of_not_lt {a b : α} (h₁ : ¬key a < key b) (h₂ : ¬key b < key a) :
    key a = key b :=
  String.le_antisymm (String.not_lt.1 h₂) (String.not_lt.1 h₁)

theorem ascending_putRow (a : α) {rows : List α} (h : Ascending rows) :
    Ascending (putRow a rows) := by
  induction rows with
  | nil => simp [putRow, Ascending]
  | cons b rows ih =>
      obtain ⟨hb, hr⟩ := List.pairwise_cons.1 h
      unfold putRow
      split
      · next hab =>
          refine List.pairwise_cons.2 ⟨fun c hc => ?_, h⟩
          rcases List.mem_cons.1 hc with rfl | hc
          · exact hab
          · exact String.lt_trans hab (hb c hc)
      · next hab =>
          split
          · next hba =>
              refine List.pairwise_cons.2 ⟨fun c hc => ?_, ih hr⟩
              rcases mem_putRow hc with rfl | hc
              · exact hba
              · exact hb c hc
          · next hba =>
              refine List.pairwise_cons.2 ⟨fun c hc => ?_, hr⟩
              rw [key_eq_of_not_lt hab hba]
              exact hb c hc

theorem ascending_ext {xs ys : List α} (hx : Ascending xs) (hy : Ascending ys)
    (h : ∀ a, a ∈ xs ↔ a ∈ ys) : xs = ys := by
  induction xs generalizing ys with
  | nil =>
      cases ys with
      | nil => rfl
      | cons y ys => exact absurd ((h y).2 (by simp)) (by simp)
  | cons x xs ih =>
      cases ys with
      | nil => exact absurd ((h x).1 (by simp)) (by simp)
      | cons y ys =>
          obtain ⟨hx₁, hx₂⟩ := List.pairwise_cons.1 hx
          obtain ⟨hy₁, hy₂⟩ := List.pairwise_cons.1 hy
          have hxy : x = y := by
            rcases List.mem_cons.1 ((h x).1 (by simp)) with e | h₁
            · exact e
            · rcases List.mem_cons.1 ((h y).2 (by simp)) with e | h₂
              · exact e.symm
              · exact absurd (String.lt_trans (hx₁ y h₂) (hy₁ x h₁)) (String.lt_irrefl _)
          subst hxy
          congr 1
          refine ih hx₂ hy₂ fun a => ⟨fun ha => ?_, fun ha => ?_⟩
          · rcases List.mem_cons.1 ((h a).1 (List.mem_cons_of_mem _ ha)) with rfl | h'
            · exact absurd (hx₁ a ha) (String.lt_irrefl _)
            · exact h'
          · rcases List.mem_cons.1 ((h a).2 (List.mem_cons_of_mem _ ha)) with rfl | h'
            · exact absurd (hy₁ a ha) (String.lt_irrefl _)
            · exact h'

/-- The row with this key. -/
def findRow? (k : String) (rows : List α) : Option α := rows.find? fun a => key a == k

@[simp] theorem findRow?_nil (k : String) : findRow? k ([] : List α) = none := rfl

theorem findRow?_cons (k : String) (a : α) (rows : List α) :
    findRow? k (a :: rows) = if key a = k then some a else findRow? k rows := by
  by_cases h : key a = k <;> simp [findRow?, h]

theorem key_of_findRow? {k : String} {rows : List α} {a : α} (h : findRow? k rows = some a) :
    key a = k := by
  simpa using List.find?_some h

theorem mem_of_findRow? {k : String} {rows : List α} {a : α} (h : findRow? k rows = some a) :
    a ∈ rows :=
  List.mem_of_find?_eq_some h

theorem findRow?_of_mem {rows : List α} (h : Ascending rows) {a : α} (ha : a ∈ rows) :
    findRow? (key a) rows = some a := by
  induction rows with
  | nil => exact absurd ha (by simp)
  | cons b rows ih =>
      obtain ⟨hb, hr⟩ := List.pairwise_cons.1 h
      rw [findRow?_cons]
      rcases List.mem_cons.1 ha with rfl | ha
      · simp
      · have : key b ≠ key a := fun e => String.lt_irrefl (key a) (e ▸ hb a ha)
        rw [if_neg this, ih hr ha]

theorem findRow?_putRow_self (a : α) {rows : List α} :
    findRow? (key a) (putRow a rows) = some a := by
  induction rows with
  | nil => simp [putRow, findRow?_cons]
  | cons b rows ih =>
      unfold putRow
      split
      · simp [findRow?_cons]
      · split
        · next hba =>
            have : key b ≠ key a := fun e => String.lt_irrefl (key a) (by rwa [e] at hba)
            rw [findRow?_cons, if_neg this, ih]
        · simp [findRow?_cons]

theorem findRow?_putRow_of_ne {a : α} {k : String} (hk : key a ≠ k) {rows : List α} :
    findRow? k (putRow a rows) = findRow? k rows := by
  induction rows with
  | nil => simp [putRow, findRow?_cons, hk]
  | cons b rows ih =>
      unfold putRow
      split
      · simp [findRow?_cons, hk]
      · next hab =>
          split
          · rw [findRow?_cons, findRow?_cons, ih]
          · next hba =>
              have hb : key b ≠ k := key_eq_of_not_lt hab hba ▸ hk
              simp [findRow?_cons, hk, hb]

/-! ## Tables -/

/-- A table: rows by ascending key, at most one per key. -/
structure Table (α : Type) [Keyed α] where
  rows : List α
  ascending : Ascending rows

namespace Table

/-- The table without rows. -/
def empty : Table α := ⟨[], List.Pairwise.nil⟩

instance : Inhabited (Table α) := ⟨empty⟩

/-- The number of rows. -/
def size (t : Table α) : Nat := t.rows.length

/-- The row with this key. -/
def get? (t : Table α) (k : String) : Option α := findRow? k t.rows

/-- The table with a row put in, in place of one with the same key. -/
def put (t : Table α) (a : α) : Table α := ⟨putRow a t.rows, ascending_putRow a t.ascending⟩

/-- The table with rows put in one after another. -/
def putAll (t : Table α) (as : List α) : Table α := as.foldl put t

/-- The table of these rows; of equal keys the last one stays. -/
def ofList (as : List α) : Table α := empty.putAll as

@[simp] theorem rows_empty : (empty : Table α).rows = [] := rfl

@[simp] theorem get?_empty (k : String) : (empty : Table α).get? k = none := rfl

@[simp] theorem get?_put_self (t : Table α) (a : α) : (t.put a).get? (key a) = some a :=
  findRow?_putRow_self a

theorem get?_put_of_ne (t : Table α) {a : α} {k : String} (h : key a ≠ k) :
    (t.put a).get? k = t.get? k :=
  findRow?_putRow_of_ne h

theorem get?_put (t : Table α) (a : α) (k : String) :
    (t.put a).get? k = if key a = k then some a else t.get? k := by
  split
  · next h => rw [← h, get?_put_self]
  · next h => exact get?_put_of_ne t h

@[simp] theorem putAll_nil (t : Table α) : t.putAll [] = t := rfl

@[simp] theorem putAll_cons (t : Table α) (a : α) (as : List α) :
    t.putAll (a :: as) = (t.put a).putAll as := rfl

theorem key_of_get? {t : Table α} {k : String} {a : α} (h : t.get? k = some a) : key a = k :=
  key_of_findRow? h

theorem mem_of_get? {t : Table α} {k : String} {a : α} (h : t.get? k = some a) : a ∈ t.rows :=
  mem_of_findRow? h

theorem get?_of_mem {t : Table α} {a : α} (h : a ∈ t.rows) : t.get? (key a) = some a :=
  findRow?_of_mem t.ascending h

theorem mem_rows_iff {t : Table α} {a : α} : a ∈ t.rows ↔ t.get? (key a) = some a :=
  ⟨get?_of_mem, mem_of_get?⟩

theorem ext_rows {s t : Table α} (h : s.rows = t.rows) : s = t := by
  cases s
  cases t
  simp only at h
  subst h
  rfl

theorem ext_get? {s t : Table α} (h : ∀ k, s.get? k = t.get? k) : s = t :=
  ext_rows (ascending_ext s.ascending t.ascending fun a => by
    rw [mem_rows_iff, mem_rows_iff, h])

end Table

end OfflineChat
