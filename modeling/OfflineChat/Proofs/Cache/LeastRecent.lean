import Mathlib.Data.Finset.Card
import Mathlib.Data.List.TakeWhile
import OfflineChat.Cache

/-! # A cache forgets what was used longest ago

Which keys a cache holds can be told from what was asked of it and what it answered. Main
definitions: `CacheCall`, `CacheAnswer` and `CacheEvent`, what a cache is asked, what it answers,
and what that does to it; `lastPut?` and `othersSince`, what a log of such events says of a key;
`usedSince` and `refresh`, the same of the keys alone; `Cache.Undergoes`, the events between two
states; and `Cache.Follows`, the invariant of a cache and its log. Main statement: a key stays until
as many others were used since it was as the cache has places (`Cache.least_recently_used`). -/

set_option autoImplicit false

namespace OfflineChat

/-! ## Keys in the order of their use -/

/-- The keys used since this one was, if the latest used stands first. -/
def usedSince (k : String) (used : List String) : List String := used.takeWhile fun j => j != k

/-- The keys of a cache of `n` places after this one is used: it stands first, and what is then too
many is cut off. -/
def refresh (n : Nat) (k : String) (keys : List String) : List String :=
  k :: (keys.filter fun j => j != k).take (n - 1)

section

variable {n : Nat} {i j k : String} {used keys : List String}

@[simp] theorem usedSince_cons_self (k : String) (used : List String) :
    usedSince k (k :: used) = [] := by
  simp [usedSince]

theorem usedSince_cons_of_ne (h : i ≠ k) (used : List String) :
    usedSince k (i :: used) = i :: usedSince k used := by
  simp [usedSince, h]

theorem not_mem_usedSince_self (k : String) (used : List String) : k ∉ usedSince k used := by
  intro h
  have hne : (k != k) = true := List.mem_takeWhile_imp (p := fun j => j != k) h
  exact bne_iff_ne.1 hne rfl

/-- Of two keys one was used last. -/
theorem not_mem_usedSince (h : j ∈ usedSince k used) : k ∉ usedSince j used := by
  induction used with
  | nil => exact nomatch h
  | cons i used ih =>
      by_cases hk : i = k
      · subst hk
        simp at h
      · by_cases hj : i = j
        · subst hj
          simp
        · rw [usedSince_cons_of_ne hk, List.mem_cons] at h
          rw [usedSince_cons_of_ne hj, List.mem_cons, not_or]
          exact ⟨Ne.symm hk, ih (h.resolve_left (Ne.symm hj))⟩

theorem mem_refresh_iff_of_ne (h : k ≠ i) :
    k ∈ refresh n i keys ↔ k ∈ (keys.filter fun j => j != i).take (n - 1) := by
  rw [refresh, List.mem_cons]
  exact or_iff_right h

theorem mem_of_mem_refresh (h : k ∈ refresh n i keys) (hne : k ≠ i) : k ∈ keys :=
  List.mem_of_mem_filter (List.mem_of_mem_take ((mem_refresh_iff_of_ne hne).1 h))

theorem pairwise_refresh (h : keys.Pairwise fun j k => j ∈ usedSince k used) :
    (refresh n i keys).Pairwise fun j k => j ∈ usedSince k (i :: used) := by
  have hne : ∀ k ∈ (keys.filter fun j => j != i).take (n - 1), i ≠ k := by
    intro k hk
    exact Ne.symm (bne_iff_ne.1 (List.mem_filter.1 (List.mem_of_mem_take hk)).2)
  refine List.pairwise_cons.2 ⟨fun k hk => ?_, ?_⟩
  · rw [usedSince_cons_of_ne (hne k hk)]
    exact List.mem_cons_self
  · have hrest := (h.filter fun j => j != i).sublist (List.take_sublist (n - 1) _)
    refine hrest.imp_of_mem fun _ hk hjk => ?_
    rw [usedSince_cons_of_ne (hne _ hk)]
    exact List.mem_cons_of_mem _ hjk

/-- All keys that stay were used since one that is cut off was, and they fill all places. -/
theorem usedSince_of_cut (h : keys.Pairwise fun j k => j ∈ usedSince k used) (hk : k ∈ keys)
    (hcut : k ∉ refresh n i keys) :
    (∀ j ∈ refresh n i keys, j ∈ usedSince k (i :: used)) ∧
    (refresh n i keys).length = n - 1 + 1 := by
  have hne : k ≠ i := fun he => hcut (he ▸ List.mem_cons_self)
  have hmem : k ∈ keys.filter fun j => j != i := List.mem_filter.2 ⟨hk, by simpa using hne⟩
  rw [mem_refresh_iff_of_ne hne] at hcut
  unfold refresh
  generalize hothers : (keys.filter fun j => j != i) = others at hmem hcut
  have hsorted : others.Pairwise fun j k => j ∈ usedSince k used :=
    hothers ▸ h.sublist List.filter_sublist
  rw [← List.take_append_drop (n - 1) others] at hmem hsorted
  have hdrop := (List.mem_append.1 hmem).resolve_left hcut
  constructor
  · intro j hj
    rw [usedSince_cons_of_ne hne.symm, List.mem_cons]
    refine (List.mem_cons.1 hj).imp id fun hj => ?_
    exact (List.pairwise_append.1 hsorted).2.2 j hj k hdrop
  · have hlength := List.length_pos_of_mem hdrop
    rw [List.length_drop] at hlength
    rw [List.length_cons, List.length_take]
    omega

theorem le_card_usedSince_of_cut (h : keys.Pairwise fun j k => j ∈ usedSince k used)
    (hnodup : (refresh n i keys).Nodup) (hk : k ∈ keys) (hcut : k ∉ refresh n i keys) :
    n ≤ (usedSince k (i :: used)).toFinset.card := by
  obtain ⟨hused, hlength⟩ := usedSince_of_cut h hk hcut
  have hsubset : (refresh n i keys).toFinset ⊆ (usedSince k (i :: used)).toFinset := fun j hj =>
    List.mem_toFinset.2 (hused j (List.mem_toFinset.1 hj))
  have hcard := Finset.card_le_card hsubset
  rw [List.toFinset_card_of_nodup hnodup] at hcard
  omega

/-- What was used since a key that stays was is there. -/
theorem mem_refresh_of_mem_usedSince (h : keys.Pairwise fun j k => j ∈ usedSince k used)
    (hall : ∀ k ∈ keys, ∀ j ∈ usedSince k used, j ∈ keys) (hk : k ∈ refresh n i keys)
    (hj : j ∈ usedSince k (i :: used)) : j ∈ refresh n i keys := by
  by_cases hki : k = i
  · subst hki
    simp at hj
  by_contra hcut
  have hji : j ≠ i := fun he => hcut (he ▸ List.mem_cons_self)
  have hjk : j ∈ usedSince k used := by
    rw [usedSince_cons_of_ne (Ne.symm hki), List.mem_cons] at hj
    exact hj.resolve_left hji
  have hjkeys : j ∈ keys := hall k (mem_of_mem_refresh hk hki) j hjk
  -- `j` is cut off only if `k`, which stays, was used after it.
  exact not_mem_usedSince hj ((usedSince_of_cut h hjkeys hcut).1 k hk)

theorem card_lt_of_subset_others {js : List String} (hall : ∀ j ∈ js, j ∈ keys) (hk : k ∈ keys)
    (hkjs : k ∉ js) : js.toFinset.card < keys.length := by
  have hsubset : insert k js.toFinset ⊆ keys.toFinset := by
    intro j hj
    rw [Finset.mem_insert, List.mem_toFinset] at hj
    rw [List.mem_toFinset]
    exact hj.elim (fun he => he ▸ hk) (hall j)
  have hcard := Finset.card_le_card hsubset
  rw [Finset.card_insert_of_notMem (by simpa using hkjs)] at hcard
  have := keys.toFinset_card_le
  omega

end

/-! ## Calls, answers and events -/

/-- What a cache is asked. -/
inductive CacheCall (α : Type) where
  | get (k : String)
  | peek (k : String)
  | contains (k : String)
  | put (k : String) (a : α)
  | putAll (entries : List (String × α))
  | remove (k : String)
  | clear
  | size
  | isEmpty

/-- What a cache answers. -/
inductive CacheAnswer (α : Type) where
  | snapshot (a : Option α)
  | flag (b : Bool)
  | count (n : Nat)
  | done

/-- What happens to a cache. -/
inductive CacheEvent (α : Type) where
  | put (k : String) (a : α)
  | got (k : String)
  | removed (k : String)
  | cleared

variable {α : Type}

namespace CacheCall

/-- Asks a cache. -/
def run (call : CacheCall α) (c : Cache α) : CacheAnswer α × Cache α :=
  match call with
  | get k => (c.get? k).map .snapshot id
  | peek k => (.snapshot (c.peek? k), c)
  | contains k => (.flag (c.contains k), c)
  | put k a => (.done, c.put k a)
  | putAll entries => (.done, c.putAll entries)
  | remove k => (c.remove k).map .snapshot id
  | clear => (.done, c.clear)
  | size => (.count c.size, c)
  | isEmpty => (.flag c.isEmpty, c)

/-- What a call that was answered so has done, latest first; a key that is not found is not used. -/
def events : CacheCall α → CacheAnswer α → List (CacheEvent α)
  | get k, .snapshot (some _) => [.got k]
  | put k a, _ => [.put k a]
  | putAll entries, _ => (entries.map fun e => .put e.1 e.2).reverse
  | remove k, _ => [.removed k]
  | clear, _ => [.cleared]
  | _, _ => []

/-- The call only looks. -/
def isQuery : CacheCall α → Bool
  | peek _ | contains _ | size | isEmpty => true
  | _ => false

/-- The call may take entries out that are not the oldest. -/
def isRemoval : CacheCall α → Bool
  | remove _ | clear => true
  | _ => false

end CacheCall

namespace CacheEvent

/-- The key that is used. -/
def used? : CacheEvent α → Option String
  | put k _ | got k => some k
  | removed _ | cleared => none

/-- The event makes this of a cache. -/
def apply : CacheEvent α → Cache α → Cache α
  | put k a, c => c.put k a
  | got k, c => c.touch k
  | removed k, c => (c.remove k).2
  | cleared, c => c.clear

end CacheEvent

/-- What was put last under the key, if it was neither removed nor cleared since; the latest event
of the log stands first. -/
def lastPut? (k : String) : List (CacheEvent α) → Option α
  | [] => none
  | .put j a :: log => if j = k then some a else lastPut? k log
  | .got _ :: log => lastPut? k log
  | .removed j :: log => if j = k then none else lastPut? k log
  | .cleared :: _ => none

/-- The other keys that were put or found since this one was. -/
def othersSince (k : String) (log : List (CacheEvent α)) : List String :=
  usedSince k (log.filterMap CacheEvent.used?)

namespace Cache

/-- The answers to one call after another. -/
def answers (c : Cache α) : List (CacheCall α) → List (CacheAnswer α)
  | [] => []
  | call :: calls => (call.run c).1 :: (call.run c).2.answers calls

/-- The cache after one call after another. -/
def after (c : Cache α) (calls : List (CacheCall α)) : Cache α :=
  calls.foldl (fun c call => (call.run c).2) c

/-- What has happened, latest first, as the calls and their answers show it. -/
def log (c : Cache α) (calls : List (CacheCall α)) : List (CacheEvent α) :=
  (calls.zip (c.answers calls)).reverse.flatMap fun p => p.1.events p.2

theorem after_cons (c : Cache α) (call : CacheCall α) (calls : List (CacheCall α)) :
    c.after (call :: calls) = (call.run c).2.after calls := rfl

theorem log_cons (c : Cache α) (call : CacheCall α) (calls : List (CacheCall α)) :
    c.log (call :: calls) = (call.run c).2.log calls ++ call.events (call.run c).1 := by
  simp [log, answers]

/-- Events, latest first, that lead from one cache to another. Only what is there is found. -/
inductive Undergoes (c : Cache α) : List (CacheEvent α) → Cache α → Prop
  | nil : Undergoes c [] c
  | cons {log : List (CacheEvent α)} {d : Cache α} (h : Undergoes c log d) (e : CacheEvent α)
      (hfound : ∀ k, e = .got k → k ∈ d.keys) : Undergoes c (e :: log) (e.apply d)

/-! ## Keys after an event -/

section

variable {c : Cache α} {k : String}

theorem nodup_keys (c : Cache α) : c.keys.Nodup := c.nodup

theorem length_keys (c : Cache α) : c.keys.length = c.size := List.length_map _

theorem size_le (c : Cache α) : c.size ≤ c.capacity := c.length_le

theorem map_fst_dropKey (k : String) (entries : List (String × α)) :
    (dropKey k entries).map Prod.fst = (entries.map Prod.fst).filter fun j => j != k := by
  rw [dropKey, List.filter_map]
  rfl

/-- What is left was there before, under other keys. -/
theorem peek?_of_mem_dropKey {j : String} {a : α} (h : (j, a) ∈ dropKey k c.entries) :
    j ≠ k ∧ c.peek? j = some a := by
  refine ⟨?_, peek?_eq_some_iff.2 ((dropKey_sublist k c.entries).subset h)⟩
  rintro rfl
  exact not_mem_dropKey j c.entries (List.mem_map_of_mem (f := Prod.fst) h)

theorem keys_put (c : Cache α) (k : String) (a : α) :
    (c.put k a).keys = refresh c.capacity k c.keys := by
  unfold keys
  rw [entries_put, List.map_cons, List.map_take, map_fst_dropKey]
  rfl

/-- Using a key that is there cuts nothing off. -/
theorem keys_touch (h : k ∈ c.keys) : (c.touch k).keys = refresh c.capacity k c.keys := by
  have hlength : (c.keys.filter fun j => j != k).length ≤ c.capacity - 1 := by
    have hle := c.size_le
    rw [← c.nodup_keys.erase_eq_filter, List.length_erase_of_mem h, length_keys]
    omega
  have hkeys : (c.touch k).keys
      = c.keys.filter (fun j => j == k) ++ c.keys.filter fun j => j != k := by
    unfold keys touch promote
    rw [List.map_append, map_fst_dropKey, List.filter_map, List.filter_map]
    rfl
  rw [hkeys, List.filter_beq, List.count_eq_one_of_mem c.nodup_keys h, refresh,
    List.take_of_length_le hlength]
  rfl

theorem touch_of_not_mem (h : k ∉ c.keys) : c.touch k = c := by
  refine ext rfl ?_
  have hnone : (c.entries.filter fun e => e.1 == k) = [] := by
    refine List.filter_eq_nil_iff.2 fun e he hk => h ?_
    exact beq_iff_eq.1 hk ▸ List.mem_map_of_mem he
  show (c.entries.filter fun e => e.1 == k) ++ dropKey k c.entries = c.entries
  rw [hnone, List.nil_append, dropKey_of_not_mem h]

/-- A key that is looked up is used if it is found; otherwise nothing happens. -/
theorem run_get (c : Cache α) (k : String) :
    (k ∈ c.keys ∧ (CacheCall.get k).events ((CacheCall.get k).run c).1 = [.got k] ∧
      ((CacheCall.get k).run c).2 = c.touch k) ∨
    ((CacheCall.get k).events ((CacheCall.get k).run c).1 = [] ∧
      ((CacheCall.get k).run c).2 = c) := by
  have hanswer : ((CacheCall.get k).run c).1 = .snapshot (c.peek? k) := rfl
  rw [hanswer]
  by_cases hk : k ∈ c.keys
  · obtain ⟨a, ha⟩ := Option.isSome_iff_exists.1 (contains_iff.2 hk)
    rw [ha]
    exact .inl ⟨hk, rfl, rfl⟩
  · have hnone : c.peek? k = none := by
      rwa [← contains_iff, contains, Option.not_isSome_iff_eq_none] at hk
    rw [hnone]
    exact .inr ⟨rfl, touch_of_not_mem hk⟩

theorem keys_remove (c : Cache α) (k : String) :
    (c.remove k).2.keys = c.keys.filter fun j => j != k :=
  map_fst_dropKey k c.entries

end

/-! ## A cache follows its log -/

/-- Snapshots are what was put last; keys stand in the order of their use; and a key that was put
and is gone had to make room for as many others as there are places. -/
structure Follows (c : Cache α) (log : List (CacheEvent α)) : Prop where
  held : ∀ k a, c.peek? k = some a → lastPut? k log = some a
  byUse : c.keys.Pairwise fun j k => j ∈ othersSince k log
  gone : ∀ k, k ∉ c.keys → (lastPut? k log).isSome → c.capacity ≤ (othersSince k log).toFinset.card

/-- All keys are there that were used since one that is. -/
def HoldsOthers (c : Cache α) (log : List (CacheEvent α)) : Prop :=
  ∀ k ∈ c.keys, ∀ j ∈ othersSince k log, j ∈ c.keys

namespace Follows

variable {c : Cache α} {log : List (CacheEvent α)}

theorem new (capacity : Nat) : (Cache.new capacity : Cache α).Follows [] where
  held _ _ h := nomatch h
  byUse := List.Pairwise.nil
  gone _ _ h := nomatch h

/-- A key that is used comes first; of the others only a key that is cut off matters. -/
theorem refresh {i : String} {e : CacheEvent α} {d : Cache α} (h : c.Follows log)
    (he : e.used? = some i) (hkeys : d.keys = OfflineChat.refresh c.capacity i c.keys)
    (hcapacity : d.capacity = c.capacity)
    (hheld : ∀ k a, d.peek? k = some a → lastPut? k (e :: log) = some a)
    (hlast : ∀ k, k ≠ i → lastPut? k (e :: log) = lastPut? k log) : d.Follows (e :: log) := by
  have hothers : ∀ k, othersSince k (e :: log)
      = usedSince k (i :: log.filterMap CacheEvent.used?) := by
    intro k
    rw [othersSince, List.filterMap_cons_some he]
  refine ⟨hheld, ?_, fun k hk hput => ?_⟩
  · rw [hkeys]
    exact (pairwise_refresh h.byUse).imp fun hjk => hothers _ ▸ hjk
  · rw [hcapacity, hothers]
    rw [hkeys] at hk
    have hne : k ≠ i := fun hki => hk (hki ▸ List.mem_cons_self)
    by_cases hc : k ∈ c.keys
    · -- `k` has just been cut off
      exact le_card_usedSince_of_cut h.byUse (hkeys ▸ d.nodup_keys) hc hk
    · -- `k` was gone before, and what was used since then only grows
      have hgone := h.gone k hc (hlast k hne ▸ hput)
      rw [usedSince_cons_of_ne hne.symm, List.toFinset_cons]
      exact Nat.le_trans hgone (Finset.card_le_card (Finset.subset_insert _ _))

theorem put (h : c.Follows log) (k : String) (a : α) : (c.put k a).Follows (.put k a :: log) := by
  refine h.refresh rfl (c.keys_put k a) rfl (fun j b hb => ?_) fun j hj => if_neg hj.symm
  have hmem := peek?_eq_some_iff.1 hb
  rw [entries_put, List.mem_cons] at hmem
  rcases hmem with hfirst | hrest
  · obtain ⟨rfl, rfl⟩ := Prod.mk.inj hfirst
    exact if_pos rfl
  · obtain ⟨hne, hpeek⟩ := peek?_of_mem_dropKey (List.mem_of_mem_take hrest)
    exact (if_neg hne.symm).trans (h.held j b hpeek)

theorem got (h : c.Follows log) {k : String} (hk : k ∈ c.keys) :
    (c.touch k).Follows (.got k :: log) := by
  refine h.refresh rfl (keys_touch hk) rfl (fun j b hb => ?_) fun j _ => rfl
  rw [peek?_touch] at hb
  exact h.held j b hb

theorem removed (h : c.Follows log) (k : String) :
    (c.remove k).2.Follows (.removed k :: log) := by
  have hlast : ∀ j, j ≠ k → lastPut? j (.removed k :: log) = lastPut? j log := fun j hj =>
    if_neg hj.symm
  have hothers : ∀ j, othersSince j (.removed k :: log) = othersSince j log := fun _ => rfl
  refine ⟨fun j a ha => ?_, ?_, fun j hj hput => ?_⟩
  · obtain ⟨hne, hpeek⟩ := peek?_of_mem_dropKey (peek?_eq_some_iff.1 ha)
    rw [hlast j hne]
    exact h.held j a hpeek
  · rw [keys_remove]
    exact h.byUse.filter _
  · have hne : j ≠ k := by
      rintro rfl
      simp [lastPut?] at hput
    rw [hlast j hne] at hput
    rw [keys_remove, List.mem_filter, bne_iff_ne] at hj
    exact h.gone j (fun hmem => hj ⟨hmem, hne⟩) hput

theorem cleared (log : List (CacheEvent α)) (c : Cache α) : c.clear.Follows (.cleared :: log) where
  held _ _ h := nomatch h
  byUse := List.Pairwise.nil
  gone _ _ h := nomatch h

/-- One event. -/
theorem apply (h : c.Follows log) (e : CacheEvent α) (hfound : ∀ k, e = .got k → k ∈ c.keys) :
    (e.apply c).Follows (e :: log) := by
  cases e with
  | put k a => exact h.put k a
  | got k => exact h.got (hfound k rfl)
  | removed k => exact h.removed k
  | cleared => exact cleared log c

/-- All events since the cache was new. -/
theorem of_undergoes {capacity : Nat} (h : (Cache.new capacity).Undergoes log c) :
    c.Follows log := by
  induction h with
  | nil => exact new capacity
  | cons _ e hfound ih => exact ih.apply e hfound

end Follows

namespace HoldsOthers

variable {c : Cache α} {log : List (CacheEvent α)}

theorem refresh {i : String} {e : CacheEvent α} {d : Cache α} (hall : c.HoldsOthers log)
    (h : c.Follows log) (he : e.used? = some i)
    (hkeys : d.keys = OfflineChat.refresh c.capacity i c.keys) : d.HoldsOthers (e :: log) := by
  intro k hk j hj
  rw [othersSince, List.filterMap_cons_some he] at hj
  rw [hkeys] at hk ⊢
  exact mem_refresh_of_mem_usedSince h.byUse hall hk hj

/-- One event that takes nothing out. -/
theorem apply (hall : c.HoldsOthers log) (h : c.Follows log) {e : CacheEvent α}
    (hused : e.used?.isSome) (hfound : ∀ k, e = .got k → k ∈ c.keys) :
    (e.apply c).HoldsOthers (e :: log) := by
  cases e with
  | put k a => exact hall.refresh h rfl (c.keys_put k a)
  | got k => exact hall.refresh h rfl (keys_touch (hfound k rfl))
  | removed k => exact nomatch hused
  | cleared => exact nomatch hused

/-- All events since the cache was new, if none took anything out. -/
theorem of_undergoes {capacity : Nat} (h : (new capacity).Undergoes log c)
    (hused : ∀ e ∈ log, e.used?.isSome) : c.HoldsOthers log := by
  induction h with
  | nil => exact fun _ hk => nomatch hk
  | cons hrun e hfound ih =>
      obtain ⟨hlatest, hbefore⟩ := List.forall_mem_cons.1 hused
      exact (ih hbefore).apply (.of_undergoes hrun) hlatest hfound

end HoldsOthers

/-! ## Runs -/

namespace Undergoes

variable {c d d' : Cache α} {log log' : List (CacheEvent α)}

theorem trans (h : c.Undergoes log d) (h' : d.Undergoes log' d') :
    c.Undergoes (log' ++ log) d' := by
  induction h' with
  | nil => exact h
  | cons _ e hfound ih => exact ih.cons e hfound

theorem capacity_eq (h : c.Undergoes log d) : d.capacity = c.capacity := by
  induction h with
  | nil => rfl
  | cons _ e _ ih => cases e <;> exact ih

theorem putAll (c : Cache α) (entries : List (String × α)) :
    c.Undergoes (entries.map fun e => .put e.1 e.2).reverse (c.putAll entries) := by
  induction entries generalizing c with
  | nil => exact .nil
  | cons e entries ih =>
      have hfirst : c.Undergoes [.put e.1 e.2] (c.put e.1 e.2) := .cons .nil (.put e.1 e.2) nofun
      rw [List.map_cons, List.reverse_cons]
      exact hfirst.trans (ih _)

/-- One call. -/
theorem run (c : Cache α) (call : CacheCall α) :
    c.Undergoes (call.events (call.run c).1) (call.run c).2 := by
  cases call with
  | get k =>
      rcases c.run_get k with ⟨hk, hevents, hrun⟩ | ⟨hevents, hrun⟩
      · rw [hevents, hrun]
        exact .cons .nil (.got k) fun j hj => CacheEvent.got.inj hj ▸ hk
      · rw [hevents, hrun]
        exact .nil
  | put k a => exact .cons .nil (.put k a) nofun
  | putAll entries => exact putAll c entries
  | remove k => exact .cons .nil (.removed k) nofun
  | clear => exact .cons .nil .cleared nofun
  | peek | contains | size | isEmpty => exact .nil

/-- A whole run. -/
theorem after (c : Cache α) (calls : List (CacheCall α)) :
    c.Undergoes (c.log calls) (c.after calls) := by
  induction calls generalizing c with
  | nil => exact .nil
  | cons call calls ih =>
      rw [after_cons, log_cons]
      exact (run c call).trans (ih _)

end Undergoes

theorem isSome_used?_of_mem_events {call : CacheCall α} (h : call.isRemoval = false)
    {answer : CacheAnswer α} {e : CacheEvent α} (he : e ∈ call.events answer) : e.used?.isSome := by
  cases call with
  | get k =>
      rcases answer with (_ | a) | _ | _ | _
      case snapshot.some =>
        rw [List.mem_singleton.1 he]
        rfl
      all_goals exact nomatch he
  | put k a =>
      rw [List.mem_singleton.1 he]
      rfl
  | putAll entries =>
      obtain ⟨entry, -, rfl⟩ := List.mem_map.1 (List.mem_reverse.1 he)
      rfl
  | remove | clear => exact nomatch h
  | peek | contains | size | isEmpty => exact nomatch he

/-- If nothing is asked to be taken out, keys are only put and found. -/
theorem isSome_used?_of_mem_log {c : Cache α} {calls : List (CacheCall α)}
    (h : ∀ call ∈ calls, call.isRemoval = false) {e : CacheEvent α} (he : e ∈ c.log calls) :
    e.used?.isSome := by
  obtain ⟨p, hp, hevent⟩ := List.mem_flatMap.1 he
  have hcall := (List.of_mem_zip (List.mem_reverse.1 hp)).1
  exact isSome_used?_of_mem_events (h _ hcall) hevent

theorem run_of_isQuery (c : Cache α) {call : CacheCall α} (h : call.isQuery) :
    (call.run c).2 = c := by
  cases call with
  | peek | contains | size | isEmpty => rfl
  | get | put | putAll | remove | clear => exact nomatch h

/-- A call that only looks can be left out. -/
theorem answers_eraseIdx (c : Cache α) {calls : List (CacheCall α)} {i : Nat}
    (h : ∀ call ∈ calls[i]?, call.isQuery) :
    c.answers (calls.eraseIdx i) = (c.answers calls).eraseIdx i := by
  induction calls generalizing c i with
  | nil => rfl
  | cons call calls ih =>
      cases i with
      | zero =>
          show c.answers calls = (call.run c).2.answers calls
          rw [c.run_of_isQuery (h call rfl)]
      | succ i =>
          show (call.run c).1 :: (call.run c).2.answers (calls.eraseIdx i)
            = (call.run c).1 :: ((call.run c).2.answers calls).eraseIdx i
          rw [ih (call.run c).2 h]

/-- A cache of `n` places remembers what was used recently. -/
structure RemembersRecent (n : Nat) (c : Cache α) (log : List (CacheEvent α)) : Prop where
  size_le : c.size ≤ n
  nodup : c.keys.Nodup
  peek : ∀ k, c.contains k → ∃ a, lastPut? k log = some a ∧ c.peek? k = some a
  get : ∀ k, c.contains k → ∃ a, lastPut? k log = some a ∧ (c.get? k).1 = some a
  stays : ∀ k, (lastPut? k log).isSome → (othersSince k log).toFinset.card < n → c.contains k

/-- **A cache gives up what was used longest ago.** After any calls to a new cache of any capacity,
where 0 counts as 1: it has no more entries than that, and no key twice; what is found under a key
is what was put there last; and a key that was put, and not removed or cleared since, is there if
fewer others than the capacity were put or found since it was itself. If nothing was removed or
cleared it is there only then. And whichever call that only looks is left out, the others are
answered the same. -/
theorem least_recently_used (capacity : Nat) (calls : List (CacheCall α)) :
    RemembersRecent (max capacity 1) ((new capacity).after calls) ((new capacity).log calls) ∧
    ((∀ call ∈ calls, call.isRemoval = false) → ∀ k, ((new capacity).after calls).contains k →
      (othersSince k ((new capacity).log calls)).toFinset.card < max capacity 1) ∧
    ∀ i, (∀ call ∈ calls[i]?, call.isQuery) →
      (new capacity).answers (calls.eraseIdx i) = ((new capacity).answers calls).eraseIdx i := by
  have hrun := Undergoes.after (new capacity : Cache α) calls
  have hfollows := Follows.of_undergoes hrun
  have hcapacity : ((new capacity : Cache α).after calls).capacity = max capacity 1 :=
    hrun.capacity_eq
  have hsize := ((new capacity : Cache α).after calls).size_le
  rw [hcapacity] at hsize
  have hheld : ∀ k, ((new capacity).after calls).contains k →
      ∃ a, lastPut? k ((new capacity).log calls) = some a ∧
        ((new capacity).after calls).peek? k = some a := by
    intro k hk
    obtain ⟨a, ha⟩ := Option.isSome_iff_exists.1 hk
    exact ⟨a, hfollows.held k a ha, ha⟩
  refine ⟨⟨hsize, nodup_keys _, hheld, hheld, fun k hput hfew => ?_⟩, fun hcalls k hk => ?_,
    fun i hi => answers_eraseIdx _ hi⟩
  · by_contra hgone
    have hmany := hfollows.gone k (fun hk => hgone (contains_iff.2 hk)) hput
    omega
  · have hall := HoldsOthers.of_undergoes hrun fun e he => isSome_used?_of_mem_log hcalls he
    have hkeys := contains_iff.1 hk
    have hfew := card_lt_of_subset_others (hall k hkeys) hkeys (not_mem_usedSince_self k _)
    rw [length_keys] at hfew
    omega

/-- A key that is found, one that is not, one that is put twice in a batch, and a look. -/
def crowded : List (CacheCall Nat) :=
  [.put "a" 1, .put "b" 2, .get "a", .get "z", .putAll [("c", 3), ("c", 4)], .contains "b",
    .get "c"]

/-- The key that was found stays, the other one goes, and the look makes no difference. -/
theorem least_recently_used_foundKey :
    ((new 2).after crowded).contains "a" ∧ ¬((new 2).after crowded).contains "b" ∧
    (new 2).answers (crowded.eraseIdx 5) = ((new 2).answers crowded).eraseIdx 5 := by
  obtain ⟨hremembers, hthere, hlooks⟩ := least_recently_used 2 crowded
  refine ⟨hremembers.stays "a" (by decide) (by decide), fun hb => ?_, hlooks 5 (by decide)⟩
  exact absurd (hthere (by decide) "b" hb) (by decide)

end Cache

end OfflineChat
