import Mathlib.Data.List.Nodup
import OfflineChat.Json.Record
import OfflineChat.Proofs.Json.Nesting

/-! # Rearranged documents

The same records may be written with their fields in another order, and without those fields that
are null. Further data is no record: it stays as it is. Main definition: `Json.Rearranges`. Main
statements: a rearranged document has no other numbers (`Json.Rearranges.integral`), and in a
rearranged record each field is found under its name, or was null (`Json.PicksFields.finds`). -/

set_option autoImplicit false

namespace OfflineChat

namespace Json

/-! ## Rearrangements -/

/-- Some of the fields of a list, in any order; those that are left out are null. -/
def PicksFields (fields all : List (String × Json)) : Prop :=
  ∃ left, (fields ++ left).Perm all ∧ ∀ f ∈ left, f.2 = .null

mutual

/-- A document is another one whose records have their fields in another order, and may lack fields
that are null. -/
def Rearranges : Json → Json → Prop
  | v, .object written =>
      ∃ fields all, v = .object fields ∧ PicksFields fields all ∧ RearrangesFields all written
  | v, .array items => ∃ vs, v = .array vs ∧ RearrangesItems vs items
  | v, w => v = w

/-- Each item is rearranged. -/
def RearrangesItems : List Json → List Json → Prop
  | vs, [] => vs = []
  | vs, w :: ws => ∃ v rest, vs = v :: rest ∧ Rearranges v w ∧ RearrangesItems rest ws

/-- The value of each field is rearranged, save for further data. -/
def RearrangesFields : List (String × Json) → List (String × Json) → Prop
  | fs, [] => fs = []
  | fs, (name, w) :: ws =>
      ∃ v rest, fs = (name, v) :: rest ∧ (if name = "extra_data" then v = w else Rearranges v w) ∧
        RearrangesFields rest ws

end

theorem PicksFields.refl (fields : List (String × Json)) : PicksFields fields fields :=
  ⟨[], by rw [List.append_nil], fun _ hf => absurd hf List.not_mem_nil⟩

theorem PicksFields.subset {fields all : List (String × Json)} (h : PicksFields fields all) :
    fields ⊆ all := by
  obtain ⟨left, hperm, -⟩ := h
  exact fun f hf => hperm.subset (List.mem_append_left left hf)

mutual

/-- A document is a rearrangement of itself. -/
theorem Rearranges.refl (w : Json) : w.Rearranges w := by
  match w with
  | .null | .bool _ | .number _ | .string _ => simp [Rearranges]
  | .array items => exact ⟨items, rfl, RearrangesItems.refl items⟩
  | .object fields =>
      exact ⟨fields, fields, rfl, PicksFields.refl fields, RearrangesFields.refl fields⟩

theorem RearrangesItems.refl (ws : List Json) : RearrangesItems ws ws := by
  match ws with
  | [] => simp [RearrangesItems]
  | w :: ws => exact ⟨w, ws, rfl, Rearranges.refl w, RearrangesItems.refl ws⟩

theorem RearrangesFields.refl (ws : List (String × Json)) : RearrangesFields ws ws := by
  match ws with
  | [] => simp [RearrangesFields]
  | (name, w) :: ws =>
      refine ⟨w, ws, rfl, ?_, RearrangesFields.refl ws⟩
      split
      · rfl
      · exact Rearranges.refl w

end

mutual

/-- **A rearranged document has no other numbers.** -/
theorem Rearranges.integral {v w : Json} (h : v.Rearranges w) (hw : w.Integral) : v.Integral := by
  match w with
  | .null | .bool _ | .number _ | .string _ =>
      simp only [Rearranges] at h
      exact h ▸ hw
  | .array items =>
      obtain ⟨vs, rfl, hitems⟩ := h
      exact RearrangesItems.integral hitems hw
  | .object written =>
      obtain ⟨fields, all, rfl, hpick, hfields⟩ := h
      have hall := integralFields_iff.1 (RearrangesFields.integral hfields hw)
      exact integralFields_iff.2 fun f hf => hall f (hpick.subset hf)

theorem RearrangesItems.integral {vs ws : List Json} (h : RearrangesItems vs ws)
    (hw : IntegralItems ws) : IntegralItems vs := by
  match ws with
  | [] =>
      simp only [RearrangesItems] at h
      exact h ▸ hw
  | w :: ws =>
      obtain ⟨v, rest, rfl, hv, hrest⟩ := h
      exact ⟨Rearranges.integral hv hw.1, RearrangesItems.integral hrest hw.2⟩

theorem RearrangesFields.integral {fs ws : List (String × Json)} (h : RearrangesFields fs ws)
    (hw : IntegralFields ws) : IntegralFields fs := by
  match ws with
  | [] =>
      simp only [RearrangesFields] at h
      exact h ▸ hw
  | (name, w) :: ws =>
      obtain ⟨v, rest, rfl, hv, hrest⟩ := h
      refine ⟨?_, RearrangesFields.integral hrest hw.2⟩
      split at hv
      · exact hv ▸ hw.1
      · exact Rearranges.integral hv hw.1

end

/-! ## Fields of a rearranged record -/

theorem RearrangesFields.names_eq {all written : List (String × Json)}
    (h : RearrangesFields all written) : all.map Prod.fst = written.map Prod.fst := by
  induction written generalizing all with
  | nil =>
      simp only [RearrangesFields] at h
      rw [h]
  | cons f ws ih =>
      obtain ⟨v, rest, rfl, -, hrest⟩ := h
      rw [List.map_cons, List.map_cons, ih hrest]

/-- Each written field is there with a rearranged value. -/
theorem RearrangesFields.exists_of_mem {all written : List (String × Json)}
    (h : RearrangesFields all written) {f : String × Json} (hf : f ∈ written) :
    ∃ v, (f.1, v) ∈ all ∧ if f.1 = "extra_data" then v = f.2 else v.Rearranges f.2 := by
  induction written generalizing all with
  | nil => exact absurd hf List.not_mem_nil
  | cons g ws ih =>
      obtain ⟨v, rest, rfl, hv, hrest⟩ := h
      rcases List.mem_cons.1 hf with rfl | hf
      · exact ⟨v, List.mem_cons_self, hv⟩
      · obtain ⟨u, hu, hrearranged⟩ := ih hrest hf
        exact ⟨u, List.mem_cons_of_mem _ hu, hrearranged⟩

/-- The names of some fields of a record are distinct if all its names are. -/
theorem PicksFields.nodup_names {fields all : List (String × Json)} (h : PicksFields fields all)
    (hn : (all.map Prod.fst).Nodup) : (fields.map Prod.fst).Nodup := by
  obtain ⟨left, hperm, -⟩ := h
  have hnames := (hperm.map Prod.fst).nodup_iff.2 hn
  rw [List.map_append] at hnames
  exact hnames.of_append_left

theorem PicksFields.filter {fields all : List (String × Json)} (h : PicksFields fields all)
    (p : String × Json → Bool) : PicksFields (fields.filter p) (all.filter p) := by
  obtain ⟨left, hperm, hnull⟩ := h
  refine ⟨left.filter p, ?_, fun f hf => hnull f (List.mem_of_mem_filter hf)⟩
  rw [← List.filter_append]
  exact hperm.filter p

end Json

namespace Draft

/-- The fields of a written record with their names. -/
def named (fields : List (String × Json)) : List (String × Draft) :=
  fields.map fun f => (f.1, f.2.toDraft)

theorem named?_fieldDrafts (fields : List (String × Json)) :
    named? (Json.fieldDrafts fields) = some (named fields) := by
  induction fields with
  | nil => rfl
  | cons f fs ih =>
      rw [Json.fieldDrafts, named?, ih]
      rfl

/-- The fields beside one of a name. -/
theorem filter_fieldDrafts (name : String) (fields : List (String × Json)) :
    (Json.fieldDrafts fields).filter (fun f => f.1 != some name)
      = Json.fieldDrafts (fields.filter fun f => f.1 != name) := by
  induction fields with
  | nil => rfl
  | cons f fs ih =>
      by_cases hf : f.1 = name
      · have hdraft : ((some f.1 : Option String) != some name) = false := by simp [hf]
        rw [Json.fieldDrafts, List.filter_cons_of_neg (by simp [hdraft]),
          List.filter_cons_of_neg (by simp [hf]), ih]
      · rw [Json.fieldDrafts, List.filter_cons_of_pos (by simpa using hf),
          List.filter_cons_of_pos (by simpa using hf), Json.fieldDrafts, ih]

theorem names_named (fields : List (String × Json)) :
    (named fields).map Prod.fst = fields.map Prod.fst := by
  rw [named, List.map_map]
  rfl

theorem distinctNames_named {fields : List (String × Json)} (h : (fields.map Prod.fst).Nodup)
    (names : List String) : DistinctNames names (named fields) := by
  rw [DistinctNames, names_named]
  exact h.filter _

theorem fieldOf?_of_mem {fields : List (String × Json)} (hn : (fields.map Prod.fst).Nodup)
    {f : String × Json} (hf : f ∈ fields) : fieldOf? f.1 (named fields) = some f.2.toDraft := by
  induction fields with
  | nil => exact absurd hf List.not_mem_nil
  | cons g fs ih =>
      rw [List.map_cons, List.nodup_cons] at hn
      unfold fieldOf? named
      rcases List.mem_cons.1 hf with rfl | hf
      · rw [List.map_cons, List.find?_cons_of_pos (by simp)]
        rfl
      · have hne : g.1 ≠ f.1 := fun he => hn.1 (he ▸ List.mem_map_of_mem hf)
        rw [List.map_cons, List.find?_cons_of_neg (by simpa using hne)]
        exact ih hn.2 hf

theorem fieldOf?_of_not_mem {fields : List (String × Json)} {name : String}
    (h : name ∉ fields.map Prod.fst) : fieldOf? name (named fields) = none := by
  rw [← names_named] at h
  rw [fieldOf?, Option.map_eq_none_iff, List.find?_eq_none]
  intro f hf
  simp only [beq_iff_eq]
  exact fun he => h (he ▸ List.mem_map_of_mem hf)

/-- A field is found with a value, or is not there since its value is null. -/
def Finds (v : Json) (field : Option Draft) : Prop :=
  field = some v.toDraft ∨ field = none ∧ v = .null

end Draft

/-- **In a rearranged record each field is found under its name, or was null.** -/
theorem Json.PicksFields.finds {fields all : List (String × Json)} (h : PicksFields fields all)
    (hn : (all.map Prod.fst).Nodup) {f : String × Json} (hf : f ∈ all) :
    Draft.Finds f.2 (Draft.fieldOf? f.1 (Draft.named fields)) := by
  have hfields := h.nodup_names hn
  obtain ⟨left, hperm, hnull⟩ := h
  have hnames := (hperm.map Prod.fst).nodup_iff.2 hn
  rw [List.map_append] at hnames
  -- a field that was left out is null, and its name is not that of any other field
  rcases List.mem_append.1 (hperm.mem_iff.2 hf) with hin | hleft
  · exact .inl (Draft.fieldOf?_of_mem hfields hin)
  · have hnot : f.1 ∉ fields.map Prod.fst := fun hin =>
      List.disjoint_of_nodup_append hnames hin (List.mem_map_of_mem hleft)
    exact .inr ⟨Draft.fieldOf?_of_not_mem hnot, hnull f hleft⟩

end OfflineChat
