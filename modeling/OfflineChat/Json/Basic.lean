import OfflineChat.Decimal.Scaled

/-! # Document values

The values of a JSON document. An object is the list of its fields, in the order in which they are
written. Main definitions: `Json`; `Json.Canonical`, for values whose objects list each key once and
in ascending order; and `ExtraData`, an open-ended record of canonical fields. -/

set_option autoImplicit false

namespace OfflineChat

/-- A document value. -/
inductive Json where
  | null
  | bool (b : Bool)
  | number (n : Number)
  | string (s : String)
  | array (items : List Json)
  | object (fields : List (String × Json))

namespace Json

/-- An integer as a document value. -/
def int (n : Int) : Json := .number (.int n)

/-- Each key is smaller than those after it. -/
def AscendingKeys (fields : List (String × Json)) : Prop :=
  (fields.map Prod.fst).Pairwise (· < ·)

mutual

/-- All keys ascend and all numbers fit. -/
def Canonical : Json → Prop
  | .number n => n.Fits
  | .array items => CanonicalItems items
  | .object fields => AscendingKeys fields ∧ CanonicalFields fields
  | .null | .bool _ | .string _ => True

/-- All items are canonical. -/
def CanonicalItems : List Json → Prop
  | [] => True
  | item :: items => Canonical item ∧ CanonicalItems items

/-- All field values are canonical. -/
def CanonicalFields : List (String × Json) → Prop
  | [] => True
  | (_, value) :: fields => Canonical value ∧ CanonicalFields fields

end

theorem canonicalItems_iff {items : List Json} :
    CanonicalItems items ↔ ∀ v ∈ items, Canonical v := by
  induction items with
  | nil => simp [CanonicalItems]
  | cons v vs ih => simp [CanonicalItems, ih]

theorem canonicalFields_iff {fields : List (String × Json)} :
    CanonicalFields fields ↔ ∀ f ∈ fields, Canonical f.2 := by
  induction fields with
  | nil => simp [CanonicalFields]
  | cons f fs ih => obtain ⟨k, v⟩ := f; simp [CanonicalFields, ih]

/-! ## Objects as maps -/

/-- Puts a field in its place; a field with the same key gives way. -/
def insertField (key : String) (value : Json) :
    List (String × Json) → List (String × Json)
  | [] => [(key, value)]
  | (k, v) :: fields =>
      if key < k then (key, value) :: (k, v) :: fields
      else if k < key then (k, v) :: insertField key value fields
      else (key, value) :: fields

/-- The fields by ascending key; of equal keys the last one stays. -/
def sortFields (fields : List (String × Json)) : List (String × Json) :=
  fields.foldl (fun sorted f => insertField f.1 f.2 sorted) []

theorem mem_insertField {key : String} {value : Json} {fields : List (String × Json)}
    {f : String × Json} (h : f ∈ insertField key value fields) :
    f = (key, value) ∨ f ∈ fields := by
  induction fields with
  | nil => simpa [insertField] using h
  | cons g gs ih =>
      obtain ⟨k, v⟩ := g
      simp only [insertField] at h
      split at h
      · simpa using h
      · split at h
        · rcases List.mem_cons.1 h with h | h
          · exact .inr (by simp [h])
          · rcases ih h with h | h
            · exact .inl h
            · exact .inr (List.mem_cons_of_mem _ h)
        · rcases List.mem_cons.1 h with h | h
          · exact .inl h
          · exact .inr (List.mem_cons_of_mem _ h)

theorem ascendingKeys_insertField {key : String} {value : Json}
    {fields : List (String × Json)} (h : AscendingKeys fields) :
    AscendingKeys (insertField key value fields) := by
  induction fields with
  | nil => simp [insertField, AscendingKeys]
  | cons g gs ih =>
      obtain ⟨k, v⟩ := g
      simp only [AscendingKeys, List.map_cons, List.pairwise_cons, List.mem_map] at h ih
      simp only [insertField]
      split
      · next hk =>
          simp only [AscendingKeys, List.map_cons, List.pairwise_cons, List.mem_cons,
            List.mem_map]
          refine ⟨?_, h.1, h.2⟩
          rintro a (rfl | ha)
          · exact hk
          · exact String.lt_trans hk (h.1 a ha)
      · split
        · next hk =>
            simp only [AscendingKeys, List.map_cons, List.pairwise_cons, List.mem_map]
            refine ⟨?_, ih h.2⟩
            rintro a ⟨f, hf, rfl⟩
            rcases mem_insertField hf with rfl | hf
            · exact hk
            · exact h.1 _ ⟨f, hf, rfl⟩
        · next h1 h2 =>
            have : key = k := String.le_antisymm (String.not_lt.1 h2) (String.not_lt.1 h1)
            subst this
            simp only [AscendingKeys, List.map_cons, List.pairwise_cons, List.mem_map]
            exact h

theorem ascendingKeys_sortFields (fields : List (String × Json)) :
    AscendingKeys (sortFields fields) := by
  have : ∀ fs acc : List (String × Json), AscendingKeys acc →
      AscendingKeys (fs.foldl (fun sorted f => insertField f.1 f.2 sorted) acc) := by
    intro fs
    induction fs with
    | nil => exact fun acc h => h
    | cons f fs ih => exact fun acc h => ih _ (ascendingKeys_insertField h)
  exact this fields [] (by simp [AscendingKeys])

theorem mem_sortFields {fields : List (String × Json)} {f : String × Json}
    (h : f ∈ sortFields fields) : f ∈ fields := by
  have : ∀ (fs acc : List (String × Json)),
      f ∈ fs.foldl (fun sorted f => insertField f.1 f.2 sorted) acc → f ∈ fs ∨ f ∈ acc := by
    intro fs
    induction fs with
    | nil => exact fun acc h => .inr h
    | cons g gs ih =>
        intro acc h
        rcases ih _ h with h | h
        · exact .inl (List.mem_cons_of_mem _ h)
        · rcases mem_insertField h with h | h
          · exact .inl (by simp [h])
          · exact .inr h
  exact (this fields [] h).resolve_right (by simp)

theorem canonicalFields_sortFields {fields : List (String × Json)} (h : CanonicalFields fields) :
    CanonicalFields (sortFields fields) :=
  canonicalFields_iff.2 fun _ hf => canonicalFields_iff.1 h _ (mem_sortFields hf)

end Json

/-- Further data of an entity, by key. -/
structure ExtraData where
  fields : List (String × Json)
  canonical : Json.Canonical (.object fields)

namespace ExtraData

/-- No further data. -/
def empty : ExtraData := ⟨[], by simp [Json.Canonical, Json.AscendingKeys, Json.CanonicalFields]⟩

instance : Inhabited ExtraData := ⟨empty⟩

/-- The data as a document. -/
def toJson (x : ExtraData) : Json := .object x.fields

@[ext] theorem ext {x y : ExtraData} (h : x.fields = y.fields) : x = y := by
  cases x
  cases y
  simp only at h
  subst h
  rfl

end ExtraData

end OfflineChat
