import Mathlib.Data.List.Nodup
import OfflineChat.Cache
import OfflineChat.Proofs.Store.Selection

/-! # What a cache holds

A cache may give up any entry when something is filed, so after a batch an entry that is there tells
what was filed last under its key, and one that is not there tells nothing. Main definition:
`lastOfKey`, the last item of a key in a batch. Main statements: what is cached after a batch, if
anything, is what a table would hold after it (`EntityCache.peek?_putAll`), and what is cached or
stored for a list of keys (`hits_append_misses_perm`). -/

set_option autoImplicit false

namespace OfflineChat

variable {α : Type} [Keyed α]

/-! ## The last item of a key -/

/-- The last item of a batch that has this key. -/
def lastOfKey (as : List α) (k : String) : Option α := as.reverse.find? fun a => key a == k

theorem lastOfKey_cons (a : α) (as : List α) (k : String) :
    lastOfKey (a :: as) k = (lastOfKey as k).or (if key a = k then some a else none) := by
  unfold lastOfKey
  rw [List.reverse_cons, List.find?_append]
  by_cases hk : key a = k
  · simp [hk]
  · simp [hk]

theorem mem_of_lastOfKey {as : List α} {k : String} {a : α} (h : lastOfKey as k = some a) :
    a ∈ as :=
  List.mem_reverse.1 (List.mem_of_find?_eq_some h)

theorem key_of_lastOfKey {as : List α} {k : String} {a : α} (h : lastOfKey as k = some a) :
    key a = k := by
  simpa using List.find?_some h

theorem lastOfKey_eq_none_iff {as : List α} {k : String} :
    lastOfKey as k = none ↔ k ∉ as.map key := by
  unfold lastOfKey
  rw [List.find?_eq_none]
  constructor
  · intro h hk
    obtain ⟨a, ha, rfl⟩ := List.mem_map.1 hk
    exact absurd (h a (List.mem_reverse.2 ha)) (by simp)
  · intro hk a ha
    simp only [beq_iff_eq]
    exact fun he => hk (he ▸ List.mem_map_of_mem (List.mem_reverse.1 ha))

theorem lastOfKey_map {β : Type} [Keyed β] {f : α → β} (hf : ∀ a, key (f a) = key a)
    (as : List α) (k : String) : lastOfKey (as.map f) k = (lastOfKey as k).map f := by
  induction as with
  | nil => rfl
  | cons a as ih =>
      rw [List.map_cons, lastOfKey_cons, lastOfKey_cons, ih, hf]
      cases lastOfKey as k with
      | some b => rfl
      | none => by_cases hk : key a = k <;> simp [hk]

/-- What a table holds after a batch. -/
theorem Table.get?_putAll_last (t : Table α) (as : List α) (k : String) :
    (t.putAll as).get? k = (lastOfKey as k).or (t.get? k) :=
  t.get?_putAll as k

/-! ## Entries after a change -/

namespace EntityCache

variable {c : EntityCache α} {k : String} {a b : α}

theorem peek?_put (h : (c.put a).peek? k = some b) :
    (if key a = k then some a else c.peek? k) = some b := by
  have hmem : (k, b) ∈ (key a, a) :: (Cache.dropKey (key a) c.entries).take (c.capacity - 1) :=
    Cache.peek?_eq_some_iff.1 h
  rcases List.mem_cons.1 hmem with hfirst | hrest
  · obtain ⟨rfl, rfl⟩ := Prod.mk.inj hfirst
    rw [if_pos rfl]
  · have hdrop := (List.take_sublist _ _).subset hrest
    have hne : key a ≠ k := by
      intro he
      exact Cache.not_mem_dropKey (key a) c.entries
        (List.mem_map.2 ⟨(k, b), hdrop, he.symm⟩)
    rw [if_neg hne]
    exact Cache.peek?_eq_some_iff.2 ((Cache.dropKey_sublist _ _).subset hdrop)

/-- **What is cached after a batch, if anything, is what a table would hold after it.** -/
theorem peek?_putAll {as : List α} (h : (c.putAll as).peek? k = some b) :
    (lastOfKey as k).or (c.peek? k) = some b := by
  induction as generalizing c with
  | nil => exact h
  | cons a as ih =>
      have hrest := ih (c := c.put a) h
      rw [lastOfKey_cons, Option.or_assoc]
      rcases Option.or_eq_some_iff.1 hrest with hlast | ⟨hnone, hput⟩
      · rw [hlast]
        rfl
      · have hold := peek?_put hput
        rw [hnone, Option.none_or]
        by_cases hk : key a = k
        · rw [if_pos hk] at hold ⊢
          exact hold
        · rw [if_neg hk] at hold ⊢
          exact hold

theorem peek?_remove_self (c : EntityCache α) (k : String) : (c.remove k).peek? k = none := by
  cases h : (c.remove k).peek? k with
  | none => rfl
  | some b =>
      have hmem : (k, b) ∈ Cache.dropKey k c.entries := Cache.peek?_eq_some_iff.1 h
      exact absurd (List.mem_map_of_mem (f := Prod.fst) hmem) (Cache.not_mem_dropKey k c.entries)

theorem peek?_remove {j : String} (h : (c.remove j).peek? k = some b) : c.peek? k = some b :=
  Cache.peek?_eq_some_iff.2
    ((Cache.dropKey_sublist j c.entries).subset (Cache.peek?_eq_some_iff.1 h))

theorem peek?_removeAll {ks : List String} (h : (c.removeAll ks).peek? k = some b) :
    k ∉ ks ∧ c.peek? k = some b := by
  induction ks generalizing c with
  | nil => exact ⟨List.not_mem_nil, h⟩
  | cons j ks ih =>
      obtain ⟨hks, hremoved⟩ := ih (c := c.remove j) h
      have hne : k ≠ j := by
        rintro rfl
        rw [peek?_remove_self] at hremoved
        exact absurd hremoved (by simp)
      exact ⟨List.not_mem_cons_of_ne_of_not_mem hne hks, peek?_remove hremoved⟩

@[simp] theorem peek?_clear (c : EntityCache α) (k : String) : c.clear.peek? k = none := rfl

@[simp] theorem peek?_new (capacity : Nat) (k : String) :
    (EntityCache.new capacity : EntityCache α).peek? k = none := rfl

end EntityCache

/-! ## Many keys -/

/-- What is cached for some keys, and what is stored for those that are not cached, is what is
cached or else stored for each of them. -/
theorem hits_append_misses_perm {β : Type} (cached stored : String → Option β) (ks : List String) :
    (ks.filterMap cached ++ (ks.filter fun k => (cached k).isNone).filterMap stored).Perm
      (ks.filterMap fun k => (cached k).or (stored k)) := by
  induction ks with
  | nil => exact List.Perm.refl _
  | cons k ks ih =>
      cases hc : cached k with
      | some b =>
          have hshown : (cached k).or (stored k) = some b := by rw [hc]; rfl
          rw [List.filterMap_cons_some hc, List.filter_cons_of_neg (by simp [hc]),
            List.filterMap_cons_some (f := fun k => (cached k).or (stored k)) hshown]
          exact List.Perm.cons b ih
      | none =>
          have hshown : (cached k).or (stored k) = stored k := by rw [hc]; rfl
          rw [List.filterMap_cons_none hc, List.filter_cons_of_pos (by simp [hc])]
          cases hs : stored k with
          | none =>
              rw [List.filterMap_cons_none hs,
                List.filterMap_cons_none (f := fun k => (cached k).or (stored k))
                  (hshown.trans hs)]
              exact ih
          | some b =>
              rw [List.filterMap_cons_some hs,
                List.filterMap_cons_some (f := fun k => (cached k).or (stored k))
                  (hshown.trans hs)]
              exact List.perm_middle.trans (List.Perm.cons b ih)

end OfflineChat
