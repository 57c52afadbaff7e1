import OfflineChat.Entity.Document
import OfflineChat.Proofs.Json.Parse

/-! # Typed documents are read back

What a typed reader makes of the draft of a document that was written for its type: the value that
was written, as long as the document nests within the budget. Main definition: `ReadsBack`. Main
statements: `readsBack_list`, `readsBack_extraData`, `UploadState.readsBack` and
`Attachment.readsBack`. -/

set_option autoImplicit false

namespace OfflineChat

open Draft (text? int64? list? texts? extraData? value? record? required optional)

/-- Within every budget of nesting, the draft of the document of `a` is read as `a` if the document
nests no deeper, and not at all otherwise. -/
def ReadsBack {α : Type} (ofDraft? : Nat → Draft → Option α) (toJson : α → Json) (a : α) : Prop :=
  ∀ budget, ofDraft? budget (toJson a).toDraft = if (toJson a).depth ≤ budget then some a else none

/-! ## Lists -/

theorem mapM_itemDrafts {α : Type} {item? : Nat → Draft → Option α} {toJson : α → Json}
    {as : List α} (h : ∀ a ∈ as, ReadsBack item? toJson a) (budget : Nat) :
    (Json.itemDrafts (as.map toJson)).mapM (item? budget)
      = if Json.itemsDepth (as.map toJson) ≤ budget then some as else none := by
  induction as with
  | nil => simp [Json.itemDrafts, Json.itemsDepth]
  | cons a as ih =>
      have ha := h a List.mem_cons_self budget
      have hrest := ih fun b hb => h b (List.mem_cons_of_mem _ hb)
      simp only [List.map_cons, Json.itemDrafts, Json.itemsDepth, List.mapM_cons, ha, hrest,
        Nat.max_le]
      by_cases h1 : (toJson a).depth ≤ budget
      · by_cases h2 : Json.itemsDepth (as.map toJson) ≤ budget <;> simp [h1, h2]
      · simp [h1]

/-- **A list is read back if its items are.** -/
theorem readsBack_list {α : Type} {item? : Nat → Draft → Option α} {toJson : α → Json}
    {as : List α} (h : ∀ a ∈ as, ReadsBack item? toJson a) :
    ReadsBack (list? item?) (fun as => .array (as.map toJson)) as := by
  intro budget
  cases budget with
  | zero => simp [Json.toDraft, list?, Json.depth]
  | succ budget =>
      have hitems := mapM_itemDrafts h budget
      simp only [Json.toDraft, list?, hitems, Json.depth, Nat.add_le_add_iff_right]

theorem readsBack_texts (texts : List String) : ReadsBack texts? Json.ofTexts texts :=
  readsBack_list fun _ _ budget => (if_pos (Nat.zero_le budget)).symm

/-! ## Further data -/

/-- Further data is an object, and an object within the budget is its own value. -/
theorem readsBack_extraData (x : ExtraData) : ReadsBack extraData? ExtraData.toJson x := by
  intro budget
  have hvalue : value? budget x.toJson.toDraft
      = if x.toJson.depth ≤ budget then some x.toJson else none :=
    Draft.value?_toDraft x.canonical budget
  unfold extraData?
  -- the value of the draft is the object that was written, if it is anything
  split
  · next fields h =>
      rw [hvalue] at h
      split at h
      · next hd =>
          have hf : x.fields = fields := by simpa [ExtraData.toJson] using h
          rw [if_pos hd]
          exact congrArg some (ExtraData.ext hf.symm)
      · exact absurd h (by simp)
  · next hno =>
      by_cases hd : x.toJson.depth ≤ budget
      · rw [if_pos hd] at hvalue
        exact absurd hvalue (hno x.fields)
      · rw [if_neg hd]

/-! ## Single fields -/

theorem int64_range (n : Int64) :
    -0x8000_0000_0000_0000 ≤ n.toInt ∧ n.toInt ≤ 0x7FFF_FFFF_FFFF_FFFF :=
  ⟨n.minValue_le_toInt, n.toInt_le⟩

theorem fits_int64 (n : Int64) : (Number.int n.toInt).Fits := by
  have h := int64_range n
  simp only [Number.Fits]
  omega

theorem int64?_toInt (n : Int64) : int64? (Json.int n.toInt).toDraft = some n := by
  have hn : Int64.ofInt n.toInt = n := Int64.ofInt_toInt n
  simp only [Json.int, Json.toDraft, int64?, Draft.intWithin?]
  rw [if_pos (int64_range n), Option.map_some, hn]

theorem optional_text?_ofOption (s : Option String) :
    optional text? (some (Json.ofOption .string s).toDraft) = some s := by
  cases s <;> rfl

/-! ## Attachments -/

theorem UploadState.depth_toJson (u : UploadState) : u.toJson.depth = 1 := by
  cases u <;> rfl

theorem UploadState.readsBack (u : UploadState) :
    ReadsBack UploadState.ofDraft? UploadState.toJson u := by
  intro budget
  rw [u.depth_toJson]
  cases budget with
  | zero => cases u <;> rfl
  | succ budget =>
      rw [if_pos (Nat.le_add_left 1 budget)]
      cases u with
      | idle | success | failed reason => rfl
      | inProgress bytesUploaded totalBytes =>
          -- the fields beside the tag must be readable values before they are read as integers
          let fields : List (String × Json) :=
            [("bytes_uploaded", .int bytesUploaded.toInt), ("total_bytes", .int totalBytes.toInt)]
          have hcanonical : Json.CanonicalFields fields :=
            ⟨fits_int64 bytesUploaded, fits_int64 totalBytes, trivial⟩
          have hdepth : Json.fieldsDepth fields ≤ budget := Nat.zero_le budget
          have hfields := Draft.fieldValues?_fieldDrafts hcanonical budget
          rw [if_pos hdepth] at hfields
          show (Draft.fieldValues? budget (Json.fieldDrafts fields)).bind (fun _ =>
            (int64? (Json.int bytesUploaded.toInt).toDraft).bind fun b =>
              (int64? (Json.int totalBytes.toInt).toDraft).bind fun t => some (inProgress b t)) = _
          rw [hfields, int64?_toInt, int64?_toInt]
          rfl

theorem Attachment.depth_toJson (a : Attachment) :
    a.toJson.depth = a.extraData.toJson.depth + 1 := by
  have hpositive : 1 ≤ a.extraData.toJson.depth := Nat.le_add_left 1 _
  have hoption : ∀ s : Option String, (Json.ofOption .string s).depth = 0 := by
    intro s
    cases s <;> rfl
  have hint : (Json.int a.fileSize.toInt).depth = 0 := rfl
  simp only [Attachment.toJson, Json.depth, Json.fieldsDepth, hoption, hint,
    a.uploadState.depth_toJson]
  omega

theorem Attachment.readsBack (a : Attachment) :
    ReadsBack Attachment.ofDraft? Attachment.toJson a := by
  intro budget
  rw [a.depth_toJson]
  cases budget with
  | zero => rfl
  | succ budget =>
      have hrecord : record? Attachment.fieldNames a.toJson.toDraft = some
          [some (Json.ofOption .string a.title).toDraft,
            some (Json.ofOption .string a.mimeType).toDraft,
            some (Json.int a.fileSize.toInt).toDraft, some (Json.ofOption .string a.url).toDraft,
            some a.uploadState.toJson.toDraft, some a.extraData.toJson.toDraft] := rfl
      have hupload := a.uploadState.readsBack budget
      have hextra := readsBack_extraData a.extraData budget
      have hstate : a.uploadState.toJson.depth ≤ budget ↔ 1 ≤ budget := by
        rw [a.uploadState.depth_toJson]
      have hpositive : 1 ≤ a.extraData.toJson.depth := Nat.le_add_left 1 _
      simp only [Attachment.ofDraft?, hrecord, required, Option.bind_some,
        optional_text?_ofOption, int64?_toInt, hupload, hextra, Nat.add_le_add_iff_right,
        Option.bind_eq_bind, Option.pure_def]
      by_cases hd : a.extraData.toJson.depth ≤ budget
      · rw [if_pos hd, if_pos (hstate.2 (by omega)), if_pos hd]
        rfl
      · rw [if_neg hd, if_neg hd]
        cases h : (if a.uploadState.toJson.depth ≤ budget then some a.uploadState else none) <;> rfl

/-! ## Numbers

The numbers that the fields of an entity are written as are integers of 64 bits, so that only those
of its further data can be doubles. -/

theorem integralItems_map {α : Type} {toJson : α → Json} {as : List α}
    (h : ∀ a ∈ as, (toJson a).Integral) : Json.IntegralItems (as.map toJson) := by
  induction as with
  | nil => exact trivial
  | cons a as ih =>
      exact ⟨h a List.mem_cons_self, ih fun b hb => h b (List.mem_cons_of_mem _ hb)⟩

theorem integral_ofTexts (texts : List String) : (Json.ofTexts texts).Integral := by
  simp only [Json.ofTexts, Json.Integral]
  exact integralItems_map fun _ _ => trivial

theorem UploadState.integral_toJson (u : UploadState) : u.toJson.Integral := by
  cases u with
  | idle | success => exact ⟨trivial, trivial⟩
  | inProgress bytesUploaded totalBytes =>
      exact ⟨trivial, fits_int64 bytesUploaded, fits_int64 totalBytes, trivial⟩
  | failed reason => exact ⟨trivial, trivial, trivial⟩

theorem integral_ofOption {α : Type} {f : α → Json} (h : ∀ a, (f a).Integral) (o : Option α) :
    (Json.ofOption f o).Integral := by
  cases o with
  | none => trivial
  | some a => exact h a

theorem integral_ofText? (s : Option String) : (Json.ofOption .string s).Integral :=
  integral_ofOption (f := .string) (fun _ => trivial) s

theorem integral_ofInstant? (t : Option Instant) : (Json.ofOption .ofInstant t).Integral :=
  integral_ofOption (f := .ofInstant) (fun _ => trivial) t

theorem Attachment.integral_toJson {a : Attachment} (h : a.extraData.toJson.Integral) :
    a.toJson.Integral :=
  ⟨integral_ofText? a.title, integral_ofText? a.mimeType, fits_int64 a.fileSize,
    integral_ofText? a.url, a.uploadState.integral_toJson, h, trivial⟩

theorem User.integral_toJson {u : User} (h : u.extraData.toJson.Integral) : u.toJson.Integral :=
  ⟨trivial, trivial, integral_ofText? u.name, integral_ofText? u.image,
    integral_ofInstant? u.createdAt, integral_ofInstant? u.updatedAt,
    integral_ofInstant? u.lastActive, trivial, trivial, integral_ofTexts u.mutes, h, trivial⟩

theorem fits_int32 (n : Int32) : (Number.int n.toInt).Fits := by
  have hlow := n.le_toInt
  have hhigh := n.toInt_lt
  simp only [Number.Fits]
  omega

theorem Channel.integral_toJson {c : Channel} (h : c.extraData.toJson.Integral) :
    c.toJson.Integral :=
  ⟨trivial, trivial, trivial, fits_int32 c.cooldown, trivial,
    integral_ofOption (f := .bool) (fun _ => trivial) c.hidden, trivial, fits_int32 c.memberCount,
    integral_ofText? c.lastMessageId, integral_ofInstant? c.lastMessageAt,
    integral_ofInstant? c.createdAt, integral_ofInstant? c.updatedAt,
    integral_ofInstant? c.deletedAt, trivial, h, trivial, trivial⟩

theorem Message.integral_toJson {m : Message} (h : m.extraData.toJson.Integral)
    (huser : m.user.extraData.toJson.Integral)
    (hattachments : ∀ a ∈ m.attachments, a.extraData.toJson.Integral)
    (hmentioned : ∀ u ∈ m.mentionedUsers, u.extraData.toJson.Integral) : m.toJson.Integral :=
  ⟨trivial, trivial, User.integral_toJson huser, trivial,
    integralItems_map fun a ha => Attachment.integral_toJson (hattachments a ha),
    integralItems_map fun u hu => User.integral_toJson (hmentioned u hu),
    integral_ofInstant? m.createdAt, integral_ofInstant? m.createdLocallyAt,
    integral_ofInstant? m.updatedAt, integral_ofInstant? m.updatedLocallyAt,
    integral_ofInstant? m.deletedAt, h, trivial, integral_ofText? m.syncDescription, trivial⟩

end OfflineChat
