import OfflineChat.Json.Printer
import OfflineChat.Proofs.Json.Scan

/-! # Written values are parsed back

The compact text of a value whose numbers are integers is parsed into the draft of that value, and
the draft is read back as the value just if the budget of nesting covers it. Main definitions:
`Json.Integral`, `Json.depth`. Main statements: `Draft.parse?_text` and `Draft.value?_toDraft`. -/

set_option autoImplicit false

namespace OfflineChat

namespace Json

/-! ## Integral values and nesting -/

mutual

/-- All numbers are integers of 64 bits, signed or unsigned. -/
def Integral : Json → Prop
  | .number (.int n) => (Number.int n).Fits
  | .number (.float _) => False
  | .array items => IntegralItems items
  | .object fields => IntegralFields fields
  | .null | .bool _ | .string _ => True

/-- All numbers in the items are integers. -/
def IntegralItems : List Json → Prop
  | [] => True
  | item :: items => Integral item ∧ IntegralItems items

/-- All numbers in the field values are integers. -/
def IntegralFields : List (String × Json) → Prop
  | [] => True
  | (_, value) :: fields => Integral value ∧ IntegralFields fields

end

mutual

/-- How many arrays and objects lie inside one another. -/
def depth : Json → Nat
  | .array items => itemsDepth items + 1
  | .object fields => fieldsDepth fields + 1
  | .null | .bool _ | .number _ | .string _ => 0

/-- The depth of the deepest item. -/
def itemsDepth : List Json → Nat
  | [] => 0
  | item :: items => max (depth item) (itemsDepth items)

/-- The depth of the deepest field value. -/
def fieldsDepth : List (String × Json) → Nat
  | [] => 0
  | (_, value) :: fields => max (depth value) (fieldsDepth fields)

end

/-! ## The tokens of a value are legible -/

mutual

theorem legible_tokens_append {v : Json} (hv : v.Integral) {ts : List Token}
    (hts : Token.Legible ts) (hn : ∀ u ∈ ts.head?, u.isNumber = false) :
    Token.Legible (v.tokens ++ ts) := by
  match v with
  | .number (.int n) => exact ⟨hv, fun _ => hn, hts⟩
  | .number (.float _) => exact absurd hv id
  | .string s => exact ⟨rfl, by simp [Token.isNumber], hts⟩
  | .null | .bool _ => exact ⟨trivial, by simp [Token.isNumber], hts⟩
  | .array items =>
      -- behind the items stands the end of the array, which is no number
      have hend : Token.Legible (.endArray :: ts) := ⟨trivial, by simp [Token.isNumber], hts⟩
      have hitems := legible_itemTokens_append (by simpa only [Integral] using hv) hend rfl
      rw [tokens, List.cons_append, List.append_assoc, List.singleton_append]
      exact ⟨trivial, by simp [Token.isNumber], hitems⟩
  | .object fields =>
      have hend : Token.Legible (.endObject :: ts) := ⟨trivial, by simp [Token.isNumber], hts⟩
      have hfields := legible_fieldTokens_append (by simpa only [Integral] using hv) hend rfl
      rw [tokens, List.cons_append, List.append_assoc, List.singleton_append]
      exact ⟨trivial, by simp [Token.isNumber], hfields⟩

theorem legible_itemTokens_append {vs : List Json} (hvs : IntegralItems vs) {t : Token}
    {ts : List Token} (hts : Token.Legible (t :: ts)) (ht : t.isNumber = false) :
    Token.Legible (itemTokens vs ++ t :: ts) := by
  have hn : ∀ u ∈ (t :: ts).head?, u.isNumber = false := by simpa using ht
  match vs with
  | [] => exact hts
  | [v] => exact legible_tokens_append hvs.1 hts hn
  | v :: w :: vs =>
      have hrest := legible_itemTokens_append hvs.2 hts ht
      have hcomma : Token.Legible (.comma :: (itemTokens (w :: vs) ++ t :: ts)) :=
        ⟨trivial, by simp [Token.isNumber], hrest⟩
      rw [itemTokens, List.append_assoc, List.cons_append]
      · exact legible_tokens_append hvs.1 hcomma (by simp [Token.isNumber])
      · simp

theorem legible_fieldTokens_append {fs : List (String × Json)} (hfs : IntegralFields fs)
    {t : Token} {ts : List Token} (hts : Token.Legible (t :: ts)) (ht : t.isNumber = false) :
    Token.Legible (fieldTokens fs ++ t :: ts) := by
  have hn : ∀ u ∈ (t :: ts).head?, u.isNumber = false := by simpa using ht
  have hkey : ∀ {key : String} {us : List Token}, Token.Legible us →
      Token.Legible (.string (some key) :: .colon :: us) := fun h =>
    ⟨rfl, by simp [Token.isNumber], trivial, by simp [Token.isNumber], h⟩
  match fs with
  | [] => exact hts
  | [(key, v)] => exact hkey (legible_tokens_append hfs.1 hts hn)
  | (key, v) :: f :: fs =>
      have hrest := legible_fieldTokens_append hfs.2 hts ht
      have hcomma : Token.Legible (.comma :: (fieldTokens (f :: fs) ++ t :: ts)) :=
        ⟨trivial, by simp [Token.isNumber], hrest⟩
      rw [fieldTokens, List.cons_append, List.cons_append, List.append_assoc, List.cons_append]
      · exact hkey (legible_tokens_append hfs.1 hcomma (by simp [Token.isNumber]))
      · simp

end

theorem legible_tokens {v : Json} (hv : v.Integral) : Token.Legible v.tokens := by
  have h := legible_tokens_append hv (show Token.Legible [] from trivial) (by simp)
  rwa [List.append_nil] at h

end Json

namespace Draft

open Machine (run? push)

/-! ## The machine on the tokens of a value -/

/-- Where an item or the end of the array may stand, an item is read as after a comma. -/
theorem run?_firstItem (v : Json) (open_ : List Frame) (ts : List Token) :
    run? (.firstItem open_) (v.tokens ++ ts) = run? (.value (.array [] :: open_)) (v.tokens ++ ts)
    := by
  cases v <;> rfl

mutual

theorem run?_tokens (v : Json) (open_ : List Frame) (ts : List Token) :
    run? (.value open_) (v.tokens ++ ts) = run? (push v.toDraft open_) ts := by
  match v with
  | .null | .bool _ | .number _ | .string _ => rfl
  | .array [] => rfl
  | .array (item :: items) =>
      have hitems := run?_itemTokens item items [] open_ ts
      rw [Json.tokens, List.cons_append, List.append_assoc, List.singleton_append]
      calc run? (.firstItem open_) (Json.itemTokens (item :: items) ++ .endArray :: ts)
          = run? (.value (.array [] :: open_)) (Json.itemTokens (item :: items) ++ .endArray :: ts)
            := by
            cases items with
            | nil => exact run?_firstItem item open_ _
            | cons w ws =>
                rw [Json.itemTokens, List.append_assoc]
                · exact run?_firstItem item open_ _
                · simp
        _ = run? (push (Json.array (item :: items)).toDraft open_) ts := hitems
  | .object [] => rfl
  | .object (field :: fields) =>
      have hfields := run?_fieldTokens field fields [] open_ ts
      rw [Json.tokens, List.cons_append, List.append_assoc, List.singleton_append]
      -- the first key is read like a later one
      cases fields with
      | nil => exact hfields
      | cons g gs => exact hfields
termination_by sizeOf v

theorem run?_itemTokens (v : Json) (vs : List Json) (done : List Draft) (open_ : List Frame)
    (ts : List Token) :
    run? (.value (.array done :: open_)) (Json.itemTokens (v :: vs) ++ .endArray :: ts)
      = run? (push (.array (done.reverse ++ Json.itemDrafts (v :: vs))) open_) ts := by
  match vs with
  | [] =>
      rw [Json.itemTokens, run?_tokens v (.array done :: open_) (.endArray :: ts)]
      show run? (push (.array (v.toDraft :: done).reverse) open_) ts = _
      rw [List.reverse_cons]
      rfl
  | w :: ws =>
      rw [Json.itemTokens, List.append_assoc, List.cons_append,
        run?_tokens v (.array done :: open_)]
      · show run? (.value (.array (v.toDraft :: done) :: open_)) _ = _
        rw [run?_itemTokens w ws (v.toDraft :: done) open_ ts, List.reverse_cons,
          List.append_assoc]
        rfl
      · simp
termination_by sizeOf (v :: vs)

theorem run?_fieldTokens (f : String × Json) (fs : List (String × Json))
    (done : List (Option String × Draft)) (open_ : List Frame) (ts : List Token) :
    run? (.key done open_) (Json.fieldTokens (f :: fs) ++ .endObject :: ts)
      = run? (push (.object (done.reverse ++ Json.fieldDrafts (f :: fs))) open_) ts := by
  obtain ⟨key, v⟩ := f
  match fs with
  | [] =>
      rw [Json.fieldTokens]
      show run? (.value (.member done (some key) :: open_)) (v.tokens ++ .endObject :: ts) = _
      rw [run?_tokens v]
      show run? (push (.object ((some key, v.toDraft) :: done).reverse) open_) ts = _
      rw [List.reverse_cons]
      rfl
  | g :: gs =>
      rw [Json.fieldTokens, List.cons_append, List.cons_append, List.append_assoc,
        List.cons_append]
      · show run? (.value (.member done (some key) :: open_)) _ = _
        rw [run?_tokens v]
        show run? (.key ((some key, v.toDraft) :: done) open_) _ = _
        rw [run?_fieldTokens g gs ((some key, v.toDraft) :: done) open_ ts, List.reverse_cons,
          List.append_assoc]
        rfl
      · simp
termination_by sizeOf (f :: fs)

end

/-- **The text of an integral value is parsed back into its draft.** -/
theorem parse?_text {v : Json} (hv : v.Integral) : parse? v.text = some v.toDraft := by
  have hrun := run?_tokens v [] []
  rw [List.append_nil] at hrun
  calc parse? v.text = ofTokens? v.tokens := by
        rw [parse?, Json.text, Token.scan?_text (Json.legible_tokens hv), Option.bind_some]
    _ = some v.toDraft := by
        rw [ofTokens?, hrun]
        rfl

end Draft

namespace Json

/-! ## Sorted fields stay as they are -/

theorem insertField_append {key : String} {value : Json} {fields : List (String × Json)}
    (h : ∀ f ∈ fields, f.1 < key) : insertField key value fields = fields ++ [(key, value)] := by
  induction fields with
  | nil => rfl
  | cons f fs ih =>
      obtain ⟨k, v⟩ := f
      have hk : k < key := h (k, v) List.mem_cons_self
      have hnot : ¬key < k := fun h => String.lt_irrefl k (String.lt_trans hk h)
      rw [insertField, if_neg hnot, if_pos hk, ih fun f hf => h f (List.mem_cons_of_mem _ hf)]
      rfl

theorem sortFields_of_ascending {fields : List (String × Json)} (h : AscendingKeys fields) :
    sortFields fields = fields := by
  have hfold : ∀ fs sorted : List (String × Json), AscendingKeys (sorted ++ fs) →
      fs.foldl (fun sorted f => insertField f.1 f.2 sorted) sorted = sorted ++ fs := by
    intro fs
    induction fs with
    | nil => exact fun sorted _ => (List.append_nil sorted).symm
    | cons f fs ih =>
        intro sorted hs
        have hlt : ∀ g ∈ sorted, g.1 < f.1 := by
          simp only [AscendingKeys, List.map_append, List.pairwise_append] at hs
          exact fun g hg => hs.2.2 g.1 (List.mem_map_of_mem hg) f.1 (by simp)
        rw [List.foldl_cons, insertField_append hlt, ih _ (by simpa using hs)]
        simp
  exact hfold fields [] h

end Json

namespace Draft

/-! ## The value of a draft -/

mutual

/-- **A canonical value is read back from its draft just if it nests within the budget.** -/
theorem value?_toDraft {v : Json} (hv : v.Canonical) (budget : Nat) :
    value? budget v.toDraft = if v.depth ≤ budget then some v else none := by
  match v, budget with
  | .null, _ | .bool _, _ | .string _, _ => simp [Json.toDraft, value?, Json.depth]
  | .number n, _ =>
      have hn : n.Fits := by simpa only [Json.Canonical] using hv
      simp [Json.toDraft, value?, Json.depth, hn]
  | .array items, 0 => simp [Json.toDraft, value?, Json.depth]
  | .array items, budget + 1 =>
      have hitems := values?_itemDrafts (by simpa only [Json.Canonical] using hv) budget
      simp only [Json.toDraft, value?, hitems, Json.depth, Nat.add_le_add_iff_right]
      split <;> rfl
  | .object fields, 0 => simp [Json.toDraft, value?, Json.depth]
  | .object fields, budget + 1 =>
      simp only [Json.Canonical] at hv
      have hfields := fieldValues?_fieldDrafts hv.2 budget
      simp only [Json.toDraft, value?, hfields, Json.depth, Nat.add_le_add_iff_right]
      split
      · -- the fields are in order already, each key once
        simp [Json.sortFields_of_ascending hv.1]
      · rfl

theorem values?_itemDrafts {vs : List Json} (hvs : Json.CanonicalItems vs) (budget : Nat) :
    values? budget (Json.itemDrafts vs)
      = if Json.itemsDepth vs ≤ budget then some vs else none := by
  match vs with
  | [] => simp [Json.itemDrafts, values?, Json.itemsDepth]
  | v :: vs =>
      have hv := value?_toDraft hvs.1 budget
      have hrest := values?_itemDrafts hvs.2 budget
      simp only [Json.itemDrafts, values?, hv, hrest, Json.itemsDepth, Nat.max_le]
      by_cases h1 : v.depth ≤ budget
      · by_cases h2 : Json.itemsDepth vs ≤ budget <;> simp [h1, h2]
      · simp [h1]

theorem fieldValues?_fieldDrafts {fs : List (String × Json)} (hfs : Json.CanonicalFields fs)
    (budget : Nat) :
    fieldValues? budget (Json.fieldDrafts fs)
      = if Json.fieldsDepth fs ≤ budget then some fs else none := by
  match fs with
  | [] => simp [Json.fieldDrafts, fieldValues?, Json.fieldsDepth]
  | (key, v) :: fs =>
      have hv := value?_toDraft hfs.1 budget
      have hrest := fieldValues?_fieldDrafts hfs.2 budget
      simp only [Json.fieldDrafts, fieldValues?, hv, hrest, Json.fieldsDepth, Nat.max_le]
      by_cases h1 : v.depth ≤ budget
      · by_cases h2 : Json.fieldsDepth fs ≤ budget <;> simp [h1, h2]
      · simp [h1]

end

end Draft

end OfflineChat
