import OfflineChat.Proofs.Json.Parse

/-! # How deep values nest

Depth and integrality of arrays and objects in terms of what they hold, and the depth of a value
that was read. Main statement: a draft that is read within a budget of nesting gives a value within
that budget (`Draft.depth_of_value?`). -/

set_option autoImplicit false

namespace OfflineChat

namespace Json

theorem itemsDepth_le_iff {items : List Json} {n : Nat} :
    itemsDepth items ≤ n ↔ ∀ v ∈ items, v.depth ≤ n := by
  induction items with
  | nil => simp [itemsDepth]
  | cons v vs ih => rw [itemsDepth, Nat.max_le, ih, List.forall_mem_cons]

theorem fieldsDepth_le_iff {fields : List (String × Json)} {n : Nat} :
    fieldsDepth fields ≤ n ↔ ∀ f ∈ fields, f.2.depth ≤ n := by
  induction fields with
  | nil => simp [fieldsDepth]
  | cons f fs ih => rw [fieldsDepth, Nat.max_le, ih, List.forall_mem_cons]

theorem integralItems_iff {items : List Json} :
    IntegralItems items ↔ ∀ v ∈ items, v.Integral := by
  induction items with
  | nil => simp [IntegralItems]
  | cons v vs ih => rw [IntegralItems, ih, List.forall_mem_cons]

theorem integralFields_iff {fields : List (String × Json)} :
    IntegralFields fields ↔ ∀ f ∈ fields, f.2.Integral := by
  induction fields with
  | nil => simp [IntegralFields]
  | cons f fs ih => rw [IntegralFields, ih, List.forall_mem_cons]

end Json

namespace Draft

mutual

/-- **A value that was read nests within the budget.** -/
theorem depth_of_value? {depth : Nat} {d : Draft} {v : Json} (h : value? depth d = some v) :
    v.depth ≤ depth := by
  match d, depth with
  | .null, _ | .bool _, _ =>
      simp only [value?, Option.some.injEq] at h
      subst h
      exact Nat.zero_le _
  | .number none, _ | .array _, 0 | .object _, 0 => simp [value?] at h
  | .number (some n), _ =>
      simp only [value?] at h
      split at h
      · rw [← Option.some.inj h]
        exact Nat.zero_le _
      · exact absurd h (by simp)
  | .string s, _ =>
      simp only [value?, Option.map_eq_some_iff] at h
      obtain ⟨_, _, rfl⟩ := h
      exact Nat.zero_le _
  | .array items, depth + 1 =>
      simp only [value?, Option.map_eq_some_iff] at h
      obtain ⟨vs, hvs, rfl⟩ := h
      exact Nat.succ_le_succ (Json.itemsDepth_le_iff.2 (depth_of_values? hvs))
  | .object fields, depth + 1 =>
      simp only [value?, Option.map_eq_some_iff] at h
      obtain ⟨fs, hfs, rfl⟩ := h
      -- sorting drops fields, but makes none
      have hsorted : ∀ f ∈ Json.sortFields fs, f.2.depth ≤ depth := fun f hf =>
        depth_of_fieldValues? hfs f (Json.mem_sortFields hf)
      exact Nat.succ_le_succ (Json.fieldsDepth_le_iff.2 hsorted)

theorem depth_of_values? {depth : Nat} {ds : List Draft} {vs : List Json}
    (h : values? depth ds = some vs) : ∀ v ∈ vs, v.depth ≤ depth := by
  match ds with
  | [] =>
      simp only [values?, Option.some.injEq] at h
      subst h
      simp
  | d :: ds =>
      simp only [values?, Option.bind_eq_bind, Option.bind_eq_some_iff, Option.pure_def,
        Option.some.injEq] at h
      obtain ⟨v, hv, ws, hws, rfl⟩ := h
      exact List.forall_mem_cons.2 ⟨depth_of_value? hv, depth_of_values? hws⟩

theorem depth_of_fieldValues? {depth : Nat} {ds : List (Option String × Draft)}
    {fs : List (String × Json)} (h : fieldValues? depth ds = some fs) :
    ∀ f ∈ fs, f.2.depth ≤ depth := by
  match ds with
  | [] =>
      simp only [fieldValues?, Option.some.injEq] at h
      subst h
      simp
  | (none, d) :: ds => simp [fieldValues?] at h
  | (some key, d) :: ds =>
      simp only [fieldValues?, Option.bind_eq_bind, Option.bind_eq_some_iff, Option.pure_def,
        Option.some.injEq] at h
      obtain ⟨v, hv, gs, hgs, rfl⟩ := h
      exact List.forall_mem_cons.2 ⟨depth_of_value? hv, depth_of_fieldValues? hgs⟩

end

end Draft

end OfflineChat
