/-! # Things with a key

Entities, rows and cached snapshots are told apart by a text, their key. Main definitions: the class
`Keyed` and `firstOfKeys`, which keeps the first of each key. Main statement: its keys are distinct
and they are all the keys there were (`nodup_keys_firstOfKeys`, `mem_keys_firstOfKeys`). -/

set_option autoImplicit false

namespace OfflineChat

/-- A type whose values have a key. -/
class Keyed (α : Type) where
  key : α → String

export Keyed (key)

/-- A text is its own key. -/
instance : Keyed String := ⟨id⟩

variable {α : Type} [Keyed α]

/-- The items without those whose key occurred before. -/
def firstOfKeys : List α → List α
  | [] => []
  | a :: as => a :: (firstOfKeys as).filter fun b => key b != key a

@[simp] theorem firstOfKeys_nil : firstOfKeys ([] : List α) = [] := rfl

theorem firstOfKeys_cons (a : α) (as : List α) :
    firstOfKeys (a :: as) = a :: (firstOfKeys as).filter fun b => key b != key a := rfl

theorem firstOfKeys_sublist (as : List α) : (firstOfKeys as).Sublist as := by
  induction as with
  | nil => exact List.Sublist.refl _
  | cons a as ih => exact (List.filter_sublist.trans ih).cons_cons a

theorem mem_of_mem_firstOfKeys {a : α} {as : List α} (h : a ∈ firstOfKeys as) : a ∈ as :=
  (firstOfKeys_sublist as).subset h

theorem mem_keys_firstOfKeys {k : String} {as : List α} :
    k ∈ (firstOfKeys as).map key ↔ k ∈ as.map key := by
  induction as with
  | nil => simp
  | cons a as ih =>
      rw [firstOfKeys_cons, List.map_cons, List.map_cons, List.mem_cons, List.mem_cons, ← ih]
      by_cases hk : k = key a
      · simp [hk]
      · simp only [hk, false_or, List.mem_map, List.mem_filter, bne_iff_ne]
        constructor
        · rintro ⟨b, ⟨hb, _⟩, rfl⟩
          exact ⟨b, hb, rfl⟩
        · rintro ⟨b, hb, rfl⟩
          exact ⟨b, ⟨hb, hk⟩, rfl⟩

theorem nodup_keys_firstOfKeys (as : List α) : ((firstOfKeys as).map key).Nodup := by
  induction as with
  | nil => simp
  | cons a as ih =>
      rw [firstOfKeys_cons, List.map_cons, List.nodup_cons]
      refine ⟨?_, List.Nodup.sublist (List.filter_sublist.map key) ih⟩
      simp only [List.mem_map, List.mem_filter, bne_iff_ne]
      rintro ⟨b, ⟨_, hb⟩, h⟩
      exact hb h

theorem firstOfKeys_of_nodup {as : List α} (h : (as.map key).Nodup) : firstOfKeys as = as := by
  induction as with
  | nil => rfl
  | cons a as ih =>
      rw [List.map_cons, List.nodup_cons] at h
      rw [firstOfKeys_cons, ih h.2, List.filter_eq_self.2]
      intro b hb
      simp only [bne_iff_ne]
      exact fun e => h.1 (e ▸ List.mem_map_of_mem hb)

end OfflineChat
