import OfflineChat.Proofs.Entity.Document
import OfflineChat.Proofs.Json.Nesting
import OfflineChat.Proofs.Store.Selection
import OfflineChat.Store.Image

/-! # Files are read back

The text that a database file is written as is read back as the same file, whatever its rows hold
and whichever of its tables have been set up: nothing gets lost when a database is closed. Main
definition: `DatabaseFile.Fits`, for files whose integers have 64 bits, their version 32. Main
statement: `DatabaseFile.ofImage?_image`. -/

set_option autoImplicit false

namespace OfflineChat

/-! ## Cells and rows -/

/-- An integer has 64 bits. -/
def Cell.Fits : Cell → Prop
  | .integer n => -0x8000_0000_0000_0000 ≤ n ∧ n < 0x8000_0000_0000_0000
  | _ => True

/-- The integers of a row have 64 bits. -/
def Row.Fits (r : Row) : Prop := ∀ c ∈ r.cells, c.Fits

/-- The integers of a table have 64 bits. -/
def Table.Fits (t : Table Row) : Prop := ∀ r ∈ t.rows, r.Fits

namespace Cell

@[simp] theorem fits_text (s : String) : (text s).Fits := trivial

@[simp] theorem fits_ofText? (s : Option String) : (ofText? s).Fits := by
  cases s <;> trivial

@[simp] theorem fits_ofBool (b : Bool) : (ofBool b).Fits := by
  cases b <;> exact ⟨by decide, by decide⟩

@[simp] theorem fits_ofBool? (b : Option Bool) : (ofBool? b).Fits := by
  cases b with
  | none => trivial
  | some b => exact fits_ofBool b

@[simp] theorem fits_ofInt32 (n : Int32) : (ofInt32 n).Fits := by
  have hlow := n.le_toInt
  have hhigh := n.toInt_lt
  simp only [ofInt32, Fits]
  omega

@[simp] theorem fits_code (s : SyncStatus) : (integer s.code).Fits := by
  cases s <;> exact ⟨by decide, by decide⟩

end Cell

theorem UserRecord.fits_toRow (r : UserRecord) : r.toRow.Fits := by
  simp [Row.Fits, toRow]

theorem Channel.fits_toRow (c : Channel) : c.toRow.Fits := by
  simp [Row.Fits, toRow]

theorem Message.fits_toRow (m : Message) : m.toRow.Fits := by
  simp [Row.Fits, toRow]

/-! ## Storable values -/

/-- A value that a file may hold: it means itself when it is read, and nests at most `n` deep. -/
structure Json.IsStorable (n : Nat) (v : Json) : Prop where
  canonical : v.Canonical
  integral : v.Integral
  depth_le : v.depth ≤ n

namespace Json

theorem isStorable_array {n : Nat} {items : List Json} (h : ∀ v ∈ items, v.IsStorable n) :
    (array items).IsStorable (n + 1) where
  canonical := by
    simp only [Canonical]
    exact canonicalItems_iff.2 fun v hv => (h v hv).canonical
  integral := by
    simp only [Integral]
    exact integralItems_iff.2 fun v hv => (h v hv).integral
  depth_le := Nat.succ_le_succ (itemsDepth_le_iff.2 fun v hv => (h v hv).depth_le)

theorem insertField_of_lt {key k : String} {v w : Json} {fields : List (String × Json)}
    (h : key < k) : insertField key v ((k, w) :: fields) = (key, v) :: (k, w) :: fields :=
  if_pos h

theorem insertField_of_gt {key k : String} {v w : Json} {fields : List (String × Json)}
    (hn : ¬key < k) (h : k < key) :
    insertField key v ((k, w) :: fields) = (k, w) :: insertField key v fields := by
  rw [insertField, if_neg hn, if_pos h]

/-- Items that are read back one by one are read back together. -/
theorem list?_map {α : Type} {f : α → Json} {g : Json → Option α} {as : List α}
    (h : ∀ a ∈ as, g (f a) = some a) : (array (as.map f)).list? g = some as := by
  show (as.map f).mapM g = some as
  induction as with
  | nil => rfl
  | cons a as ih =>
      have hrest := ih fun b hb => h b (List.mem_cons_of_mem _ hb)
      rw [List.map_cons, List.mapM_cons, h a List.mem_cons_self, hrest]
      rfl

/-- A value that may be missing is read back, unless it is written as null itself. -/
theorem nullable_ofOption {α : Type} {f : α → Json} {g : Json → Option α} {o : Option α}
    (hf : ∀ a ∈ o, f a ≠ null) (h : ∀ a ∈ o, g (f a) = some a) :
    (ofOption f o).nullable g = some o := by
  cases o with
  | none => rfl
  | some a =>
      have hne : f a ≠ null := hf a rfl
      show (f a).nullable g = some (some a)
      unfold nullable
      split
      · next hnull => exact absurd hnull hne
      · rw [h a rfl]
        rfl

end Json

namespace Cell

theorem isStorable_toJson {c : Cell} (h : c.Fits) : c.toJson.IsStorable 1 := by
  cases c with
  | null | text s => exact ⟨by simp [toJson, Json.Canonical], trivial, Nat.zero_le 1⟩
  | integer n =>
      have hn : (Number.int n).Fits := by
        simp only [Fits, Number.Fits] at h ⊢
        omega
      exact ⟨by simpa only [toJson, Json.int, Json.Canonical] using hn, hn, Nat.zero_le 1⟩
  | real bits =>
      have hn : (Number.int bits.toNat).Fits := by
        have hlt := bits.toNat_lt
        simp only [Number.Fits]
        omega
      refine ⟨?_, ⟨hn, trivial⟩, Nat.le_refl 1⟩
      simp only [toJson, Json.int, Json.Canonical, Json.CanonicalFields, Json.AscendingKeys]
      exact ⟨by simp, hn, trivial⟩

end Cell

namespace Row

theorem isStorable_toJson {r : Row} (h : r.Fits) : r.toJson.IsStorable 2 :=
  Json.isStorable_array fun v hv => by
    obtain ⟨c, hc, rfl⟩ := List.mem_map.1 hv
    exact Cell.isStorable_toJson (h c hc)

theorem ofJson?_toJson (r : Row) : ofJson? r.toJson = some r := by
  rw [ofJson?, toJson, Json.list?_map fun c _ => c.ofJson?_toJson]
  rfl

end Row

/-! ## Tables -/

namespace Table

theorem isStorable_toJson {t : Table Row} (h : t.Fits) : t.toJson.IsStorable 3 :=
  Json.isStorable_array fun v hv => by
    obtain ⟨r, hr, rfl⟩ := List.mem_map.1 hv
    exact Row.isStorable_toJson (h r hr)

/-- A table is made of its rows. -/
theorem ofList_rows {α : Type} [Keyed α] (t : Table α) : ofList t.rows = t := by
  refine ext_get? fun k => ?_
  rw [ofList]
  cases hk : t.get? k with
  | some a =>
      have hfound := get?_putAll_of_mem empty t.ascending.nodup_keys (mem_of_get? hk)
      rwa [key_of_get? hk] at hfound
  | none =>
      have hnot : k ∉ t.rows.map key := by
        rw [mem_keys_iff, hk]
        simp
      rw [get?_putAll_of_not_mem empty hnot, get?_empty]

theorem ofJson?_toJson (t : Table Row) : ofJson? t.toJson = some t := by
  rw [ofJson?, toJson, Json.list?_map fun r _ => r.ofJson?_toJson, Option.map_some, ofList_rows]

end Table

/-! ## Files -/

namespace DatabaseFile

/-- The version has 32 bits, and the integers of all tables have 64. -/
structure Fits (f : DatabaseFile) : Prop where
  version : -0x8000_0000 ≤ f.version ∧ f.version < 0x8000_0000
  users : ∀ t ∈ f.users, t.Fits
  channels : ∀ t ∈ f.channels, t.Fits
  messages : ∀ t ∈ f.messages, t.Fits

variable {f : DatabaseFile}

theorem Fits.fits_version (h : f.Fits) : (Number.int f.version).Fits := by
  have hversion := h.version
  simp only [Number.Fits]
  omega

theorem isStorable_ofOption {t : Option (Table Row)} (h : ∀ u ∈ t, u.Fits) :
    (Json.ofOption Table.toJson t).IsStorable 3 := by
  cases t with
  | none => exact ⟨by simp [Json.ofOption, Json.Canonical], trivial, Nat.zero_le 3⟩
  | some t => exact Table.isStorable_toJson (h t rfl)

/-- The fields of a file are put in order when its text is read. -/
theorem value?_toDraft_toJson (h : f.Fits) :
    Draft.value? Draft.maxDepth f.toJson.toDraft = some (.object
      [ ("channels", .ofOption Table.toJson f.channels),
        ("messages", .ofOption Table.toJson f.messages),
        ("users", .ofOption Table.toJson f.users),
        ("version", .int f.version) ]) := by
  have hversion := h.fits_version
  have husers := isStorable_ofOption h.users
  have hchannels := isStorable_ofOption h.channels
  have hmessages := isStorable_ofOption h.messages
  let fields : List (String × Json) :=
    [ ("version", .int f.version), ("users", .ofOption Table.toJson f.users),
      ("channels", .ofOption Table.toJson f.channels),
      ("messages", .ofOption Table.toJson f.messages) ]
  have hcanonical : Json.CanonicalFields fields :=
    ⟨by simpa only [Json.int, Json.Canonical] using hversion, husers.canonical,
      hchannels.canonical, hmessages.canonical, trivial⟩
  have hdepth : Json.fieldsDepth fields ≤ 126 := by
    refine Json.fieldsDepth_le_iff.2 ?_
    have h0 : (Json.int f.version).depth = 0 := rfl
    have h1 := husers.depth_le
    have h2 := hchannels.depth_le
    have h3 := hmessages.depth_le
    simp only [fields, List.forall_mem_cons, List.not_mem_nil, false_imp_iff, implies_true,
      and_true]
    omega
  have hfields := Draft.fieldValues?_fieldDrafts hcanonical 126
  rw [if_pos hdepth] at hfields
  have hsorted : Json.sortFields fields =
      [ ("channels", .ofOption Table.toJson f.channels),
        ("messages", .ofOption Table.toJson f.messages),
        ("users", .ofOption Table.toJson f.users), ("version", .int f.version) ] := by
    have huv : "users" < "version" := by decide
    have hcu : "channels" < "users" := by decide
    have hmc : ¬"messages" < "channels" := by decide
    have hcm : "channels" < "messages" := by decide
    have hmu : "messages" < "users" := by decide
    show Json.insertField _ _ (Json.insertField _ _ (Json.insertField _ _ [_])) = _
    rw [Json.insertField_of_lt huv, Json.insertField_of_lt hcu, Json.insertField_of_gt hmc hcm,
      Json.insertField_of_lt hmu]
  calc Draft.value? Draft.maxDepth f.toJson.toDraft
      = (Draft.fieldValues? 126 (Json.fieldDrafts fields)).map
          fun fs => .object (Json.sortFields fs) := rfl
    _ = some (.object (Json.sortFields fields)) := by rw [hfields, Option.map_some]
    _ = _ := by rw [hsorted]

theorem nullable_ofJson? (t : Option (Table Row)) :
    (Json.ofOption Table.toJson t).nullable Table.ofJson? = some t :=
  Json.nullable_ofOption (fun _ _ => by simp [Table.toJson]) fun t _ => t.ofJson?_toJson

/-- **A file is read back from its text.** -/
theorem ofImage?_image (h : f.Fits) : ofImage? f.image = some f := by
  have hstored : f.toJson.Integral := by
    exact ⟨h.fits_version, (isStorable_ofOption h.users).integral,
      (isStorable_ofOption h.channels).integral, (isStorable_ofOption h.messages).integral, trivial⟩
  have hne : f.image ≠ "" := fun he => by
    have := congrArg String.toList he
    rw [image, String.toList_ofList] at this
    exact absurd this (by simp [toJson, Json.text, Json.tokens, Token.text])
  calc ofImage? f.image
      = (Draft.valueOf? f.toJson.text).bind ofJson? := by
        rw [ofImage?, if_neg hne, image, String.toList_ofList]
    _ = (Draft.value? Draft.maxDepth f.toJson.toDraft).bind ofJson? := by
        rw [Draft.valueOf?, Draft.parse?_text hstored, Option.bind_some]
    _ = some f := by
        rw [value?_toDraft_toJson h, Option.bind_some, ofJson?]
        simp [Json.field, Json.field?, Json.fields?, Json.int?, Json.int, nullable_ofJson?]

end DatabaseFile

end OfflineChat
