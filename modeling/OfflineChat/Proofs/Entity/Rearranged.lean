import OfflineChat.Proofs.Entity.Document
import OfflineChat.Proofs.Json.Rearranged
import OfflineChat.Proofs.Time.Loose

/-! # Rearranged entities are read

Every entity is read back from its document, and from any other document with the same fields in
another order and without fields that are null. Main definitions: `ReadsRearranged` and
`IsFound`, for what a reader finds of a written field. Main statement: `entities_round_trip`. -/

set_option autoImplicit false

namespace OfflineChat

open Draft (text? bool? int32? int64? instant? texts? extraData? list? record? required optional
  named named? fieldOf? fieldValues? Finds)

/-- Every rearrangement of the document of `a` is read as `a`, within every budget that the document
keeps to. -/
def ReadsRearranged {α : Type} (ofDraft? : Nat → Draft → Option α) (toJson : α → Json) (a : α) :
    Prop :=
  ∀ (budget : Nat) (v : Json), v.Rearranges (toJson a) → (toJson a).depth ≤ budget →
    ofDraft? budget v.toDraft = some a

/-! ## Single values -/

theorem readsRearranged_text (s : String) : ReadsRearranged (fun _ => text?) .string s := by
  rintro budget v rfl -
  rfl

theorem readsRearranged_bool (b : Bool) : ReadsRearranged (fun _ => bool?) .bool b := by
  rintro budget v rfl -
  rfl

theorem int32?_toInt (n : Int32) : int32? (Json.int n.toInt).toDraft = some n := by
  have hrange : -0x8000_0000 ≤ n.toInt ∧ n.toInt ≤ 0x7FFF_FFFF := ⟨n.le_toInt, n.toInt_le⟩
  have hn : Int32.ofInt n.toInt = n := Int32.ofInt_toInt n
  simp only [Json.int, Json.toDraft, int32?, Draft.intWithin?]
  rw [if_pos hrange, Option.map_some, hn]

theorem readsRearranged_int32 (n : Int32) :
    ReadsRearranged (fun _ => int32?) (fun n => .int n.toInt) n := by
  rintro budget v rfl -
  exact int32?_toInt n

theorem readsRearranged_int64 (n : Int64) :
    ReadsRearranged (fun _ => int64?) (fun n => .int n.toInt) n := by
  rintro budget v rfl -
  exact int64?_toInt n

theorem readsRearranged_instant (t : Instant) :
    ReadsRearranged (fun _ => instant?) .ofInstant t := by
  rintro budget v rfl -
  show Instant.ofLoose? (String.ofList t.documentText).toList = some t
  rw [String.toList_ofList, t.ofLoose?_documentText]

theorem readsRearranged_status (s : SyncStatus) :
    ReadsRearranged SyncStatus.ofDraft? SyncStatus.toJson s := by
  rintro budget v rfl -
  show SyncStatus.ofName? s.name = some s
  exact SyncStatus.ofName?_name s

/-! ## Lists -/

theorem mapM_rearranged {α : Type} {item? : Nat → Draft → Option α} {toJson : α → Json}
    {budget : Nat} {as : List α} (h : ∀ a ∈ as, ReadsRearranged item? toJson a) {vs : List Json}
    (hvs : Json.RearrangesItems vs (as.map toJson))
    (hd : Json.itemsDepth (as.map toJson) ≤ budget) :
    (Json.itemDrafts vs).mapM (item? budget) = some as := by
  induction as generalizing vs with
  | nil =>
      simp only [List.map_nil, Json.RearrangesItems] at hvs
      rw [hvs]
      rfl
  | cons a as ih =>
      obtain ⟨v, rest, rfl, hv, hrest⟩ := hvs
      obtain ⟨hda, hdas⟩ := Nat.max_le.1 hd
      have ha := h a List.mem_cons_self _ v hv hda
      have has := ih (fun b hb => h b (List.mem_cons_of_mem _ hb)) hrest hdas
      rw [Json.itemDrafts, List.mapM_cons, ha, has]
      rfl

theorem readsRearranged_list {α : Type} {item? : Nat → Draft → Option α} {toJson : α → Json}
    {as : List α} (h : ∀ a ∈ as, ReadsRearranged item? toJson a) :
    ReadsRearranged (list? item?) (fun as => .array (as.map toJson)) as := by
  rintro budget v ⟨vs, rfl, hitems⟩ hd
  cases budget with
  | zero => exact absurd hd (Nat.not_succ_le_zero _)
  | succ budget => exact mapM_rearranged h hitems (Nat.le_of_succ_le_succ hd)

theorem readsRearranged_texts (texts : List String) : ReadsRearranged texts? Json.ofTexts texts :=
  readsRearranged_list fun s _ => readsRearranged_text s

/-! ## Fields -/

/-- What a reader finds of a written field, within a budget for its value: the value rearranged, or
nothing if it is null. -/
structure IsFound (budget : Nat) (f : String × Json) (field : Option Draft) : Prop where
  depth_le : f.2.depth ≤ budget
  finds : ∃ v, Finds v field ∧ if f.1 = "extra_data" then v = f.2 else v.Rearranges f.2

namespace IsFound

variable {α : Type} {ofDraft? : Nat → Draft → Option α} {toJson : α → Json} {budget : Nat}
  {name : String} {field : Option Draft}

/-- A field that must be there is there if its reader takes no null. -/
theorem required {a : α} (hread : ReadsRearranged ofDraft? toJson a)
    (h : IsFound budget (name, toJson a) field) (hname : name ≠ "extra_data")
    (hnull : ofDraft? budget .null = none) : required (ofDraft? budget) field = some a := by
  obtain ⟨hd, v, hv, hrearranged⟩ := h
  rw [if_neg hname] at hrearranged
  have hvalue := hread _ v hrearranged hd
  -- a value that its reader takes is not null, so that the field is there
  rcases hv with rfl | ⟨rfl, rfl⟩
  · exact hvalue
  · exact absurd (hnull.symm.trans hvalue) (by simp)

theorem optional_some {read? : Draft → Option α} {d : Draft} {a : α} (h : read? d = some a)
    (hnull : read? .null = none) : optional read? (some d) = some (some a) := by
  cases d with
  | null => exact absurd (hnull.symm.trans h) (by simp)
  | _ => exact congrArg (Option.map some) h

/-- A field that may be null is read, whether or not it is there. -/
theorem optional {o : Option α} (hread : ∀ a, ReadsRearranged ofDraft? toJson a)
    (h : IsFound budget (name, .ofOption toJson o) field) (hname : name ≠ "extra_data")
    (hnull : ofDraft? budget .null = none) : optional (ofDraft? budget) field = some o := by
  obtain ⟨hd, v, hv, hrearranged⟩ := h
  rw [if_neg hname] at hrearranged
  cases o with
  | none =>
      -- an empty field is there with null, or is not there
      obtain rfl : v = .null := hrearranged
      rcases hv with rfl | ⟨rfl, -⟩ <;> rfl
  | some a =>
      have hvalue := hread a _ v hrearranged hd
      rcases hv with rfl | ⟨rfl, rfl⟩
      · exact optional_some hvalue hnull
      · exact absurd (hnull.symm.trans hvalue) (by simp)

/-- Further data is read as it was written. -/
theorem extraData {x : ExtraData} (h : IsFound budget ("extra_data", x.toJson) field) :
    Draft.required (extraData? budget) field = some x := by
  obtain ⟨hd, v, hv, rfl⟩ := h
  have hread := readsBack_extraData x budget
  rw [if_pos hd] at hread
  rcases hv with rfl | ⟨-, hnull⟩
  · exact hread
  · exact absurd hnull (by simp [ExtraData.toJson])

variable (hname : name ≠ "extra_data")
include hname

theorem text {s : String} (h : IsFound budget (name, .string s) field) :
    Draft.required text? field = some s :=
  h.required (readsRearranged_text s) hname rfl

theorem text? {s : Option String} (h : IsFound budget (name, .ofOption .string s) field) :
    Draft.optional Draft.text? field = some s :=
  h.optional readsRearranged_text hname rfl

theorem bool {b : Bool} (h : IsFound budget (name, .bool b) field) :
    Draft.required bool? field = some b :=
  h.required (readsRearranged_bool b) hname rfl

theorem bool? {b : Option Bool} (h : IsFound budget (name, .ofOption .bool b) field) :
    Draft.optional Draft.bool? field = some b :=
  h.optional readsRearranged_bool hname rfl

theorem int32 {n : Int32} (h : IsFound budget (name, .int n.toInt) field) :
    Draft.required int32? field = some n :=
  h.required (readsRearranged_int32 n) hname rfl

theorem int64 {n : Int64} (h : IsFound budget (name, .int n.toInt) field) :
    Draft.required int64? field = some n :=
  h.required (readsRearranged_int64 n) hname rfl

theorem instant? {t : Option Instant} (h : IsFound budget (name, .ofOption .ofInstant t) field) :
    Draft.optional Draft.instant? field = some t :=
  h.optional readsRearranged_instant hname rfl

theorem texts {texts : List String} (h : IsFound budget (name, .ofTexts texts) field) :
    Draft.required (texts? budget) field = some texts :=
  h.required (readsRearranged_texts texts) hname rfl

theorem status {s : SyncStatus} (h : IsFound budget (name, s.toJson) field) :
    Draft.required (SyncStatus.ofDraft? budget) field = some s :=
  h.required (readsRearranged_status s) hname rfl

end IsFound

/-- All fields of a rearranged record are found. -/
theorem exists_record {written : List (String × Json)} {budget : Nat} {v : Json}
    (hv : v.Rearranges (.object written)) (hn : (written.map Prod.fst).Nodup)
    (hd : (Json.object written).depth ≤ budget + 1) :
    ∃ fields : List (String × Draft),
      (∀ names, record? names v.toDraft = some (names.map fun n => fieldOf? n fields)) ∧
      ∀ f ∈ written, IsFound budget f (fieldOf? f.1 fields) := by
  obtain ⟨fields, all, rfl, hpick, hall⟩ := hv
  have hnames : (all.map Prod.fst).Nodup := hall.names_eq ▸ hn
  refine ⟨named fields, fun names => ?_, fun f hf => ⟨?_, ?_⟩⟩
  · have hdistinct := Draft.distinctNames_named (hpick.nodup_names hnames) names
    rw [Json.toDraft, record?, Draft.named?_fieldDrafts]
    exact if_pos hdistinct
  · exact Json.fieldsDepth_le_iff.1 (Nat.le_of_succ_le_succ hd) f hf
  · obtain ⟨u, hu, hrearranged⟩ := hall.exists_of_mem hf
    exact ⟨u, hpick.finds hnames hu, hrearranged⟩

/-! ## Users and channels -/

theorem User.readsRearranged (u : User) : ReadsRearranged User.ofDraft? User.toJson u := by
  intro budget v hv hd
  cases budget with
  | zero => exact absurd hd (Nat.not_succ_le_zero _)
  | succ budget =>
      obtain ⟨fields, hrecord, hfound⟩ := exists_record hv (by simp) hd
      simp only [List.forall_mem_cons] at hfound
      obtain ⟨hid, hrole, hname, himage, hcreated, hupdated, hactive, hinvisible, hbanned, hmutes,
        hextra, -⟩ := hfound
      simp only [ofDraft?, hrecord, fieldNames, List.map_cons, List.map_nil]
      refine Option.bind_eq_some_iff.2 ⟨_, hid.text (by decide), ?_⟩
      refine Option.bind_eq_some_iff.2 ⟨_, hrole.text (by decide), ?_⟩
      refine Option.bind_eq_some_iff.2 ⟨_, hname.text? (by decide), ?_⟩
      refine Option.bind_eq_some_iff.2 ⟨_, himage.text? (by decide), ?_⟩
      refine Option.bind_eq_some_iff.2 ⟨_, hcreated.instant? (by decide), ?_⟩
      refine Option.bind_eq_some_iff.2 ⟨_, hupdated.instant? (by decide), ?_⟩
      refine Option.bind_eq_some_iff.2 ⟨_, hactive.instant? (by decide), ?_⟩
      refine Option.bind_eq_some_iff.2 ⟨_, hinvisible.bool (by decide), ?_⟩
      refine Option.bind_eq_some_iff.2 ⟨_, hbanned.bool (by decide), ?_⟩
      refine Option.bind_eq_some_iff.2 ⟨_, hmutes.texts (by decide), ?_⟩
      exact Option.bind_eq_some_iff.2 ⟨_, hextra.extraData, rfl⟩

theorem Channel.readsRearranged (c : Channel) :
    ReadsRearranged Channel.ofDraft? Channel.toJson c := by
  intro budget v hv hd
  cases budget with
  | zero => exact absurd hd (Nat.not_succ_le_zero _)
  | succ budget =>
      obtain ⟨fields, hrecord, hfound⟩ := exists_record hv (by simp) hd
      simp only [List.forall_mem_cons] at hfound
      obtain ⟨hcid, htype, hid, hcooldown, hfrozen, hhidden, hcreator, hcount, hlastId, hlastAt,
        hcreated, hupdated, hdeleted, hteam, hextra, hstatus, -⟩ := hfound
      simp only [ofDraft?, hrecord, fieldNames, List.map_cons, List.map_nil]
      refine Option.bind_eq_some_iff.2 ⟨_, hcid.text (by decide), ?_⟩
      refine Option.bind_eq_some_iff.2 ⟨_, htype.text (by decide), ?_⟩
      refine Option.bind_eq_some_iff.2 ⟨_, hid.text (by decide), ?_⟩
      refine Option.bind_eq_some_iff.2 ⟨_, hcooldown.int32 (by decide), ?_⟩
      refine Option.bind_eq_some_iff.2 ⟨_, hfrozen.bool (by decide), ?_⟩
      refine Option.bind_eq_some_iff.2 ⟨_, hhidden.bool? (by decide), ?_⟩
      refine Option.bind_eq_some_iff.2 ⟨_, hcreator.text (by decide), ?_⟩
      refine Option.bind_eq_some_iff.2 ⟨_, hcount.int32 (by decide), ?_⟩
      refine Option.bind_eq_some_iff.2 ⟨_, hlastId.text? (by decide), ?_⟩
      refine Option.bind_eq_some_iff.2 ⟨_, hlastAt.instant? (by decide), ?_⟩
      refine Option.bind_eq_some_iff.2 ⟨_, hcreated.instant? (by decide), ?_⟩
      refine Option.bind_eq_some_iff.2 ⟨_, hupdated.instant? (by decide), ?_⟩
      refine Option.bind_eq_some_iff.2 ⟨_, hdeleted.instant? (by decide), ?_⟩
      refine Option.bind_eq_some_iff.2 ⟨_, hteam.text (by decide), ?_⟩
      refine Option.bind_eq_some_iff.2 ⟨_, hextra.extraData, ?_⟩
      exact Option.bind_eq_some_iff.2 ⟨_, hstatus.status (by decide), rfl⟩

/-! ## Attachments -/

namespace UploadState

/-- The tag of an upload state. -/
def tag : UploadState → String
  | idle => "idle"
  | inProgress _ _ => "in_progress"
  | success => "success"
  | failed _ => "failed"

/-- The fields of an upload state beside its tag. -/
def fieldsBesideTag : UploadState → List (String × Json)
  | idle | success => []
  | inProgress bytesUploaded totalBytes =>
      [("bytes_uploaded", .int bytesUploaded.toInt), ("total_bytes", .int totalBytes.toInt)]
  | failed reason => [("reason", .string reason)]

theorem toJson_eq (u : UploadState) :
    u.toJson = .object (("state", .string u.tag) :: u.fieldsBesideTag) := by
  cases u <;> rfl

variable {u : UploadState} {budget : Nat}

theorem canonical_fieldsBesideTag (u : UploadState) : Json.CanonicalFields u.fieldsBesideTag := by
  cases u with
  | idle | success => exact trivial
  | inProgress bytesUploaded totalBytes =>
      exact ⟨fits_int64 bytesUploaded, fits_int64 totalBytes, trivial⟩
  | failed reason => exact ⟨by simp [Json.Canonical], trivial⟩

/-- The fields of an upload state hold nothing that could be rearranged. -/
theorem eq_of_rearrangesFields {all : List (String × Json)}
    (h : Json.RearrangesFields all (("state", .string u.tag) :: u.fieldsBesideTag)) :
    all = ("state", .string u.tag) :: u.fieldsBesideTag := by
  cases u <;>
    simpa [fieldsBesideTag, Json.RearrangesFields, Json.Rearranges, Json.int] using h

/-- A tag and the fields beside it, in any order, make up the state. -/
theorem ofTag?_of_picks {others : List (String × Json)}
    (h : Json.PicksFields others u.fieldsBesideTag) :
    ofTag? u.tag (.object (Json.fieldDrafts others)) = some u := by
  have hv : (Json.object others).Rearranges (.object u.fieldsBesideTag) :=
    ⟨others, _, rfl, h, .refl _⟩
  have hn : (u.fieldsBesideTag.map Prod.fst).Nodup := by
    cases u <;> simp [fieldsBesideTag]
  have hd : (Json.object u.fieldsBesideTag).depth ≤ 0 + 1 := by
    cases u <;> exact Nat.le_refl 1
  obtain ⟨fields, hrecord, hfound⟩ := exists_record hv hn hd
  cases u with
  | idle | success => rfl
  | inProgress bytesUploaded totalBytes =>
      simp only [fieldsBesideTag, List.forall_mem_cons] at hfound
      obtain ⟨hbytes, htotal, -⟩ := hfound
      show ofTag? "in_progress" (Json.object others).toDraft = _
      rw [ofTag?, if_neg (by decide), if_pos rfl, hrecord]
      refine Option.bind_eq_some_iff.2 ⟨_, hbytes.int64 (by decide), ?_⟩
      exact Option.bind_eq_some_iff.2 ⟨_, htotal.int64 (by decide), rfl⟩
  | failed reason =>
      simp only [fieldsBesideTag, List.forall_mem_cons] at hfound
      obtain ⟨hreason, -⟩ := hfound
      show ofTag? "failed" (Json.object others).toDraft = _
      rw [ofTag?, if_neg (by decide), if_neg (by decide), if_neg (by decide), if_pos rfl, hrecord]
      exact Option.bind_eq_some_iff.2 ⟨_, hreason.text (by decide), rfl⟩

theorem nodup_names (u : UploadState) :
    ((("state", Json.string u.tag) :: u.fieldsBesideTag).map Prod.fst).Nodup := by
  cases u <;> simp [fieldsBesideTag]

theorem picks_besideTag {fields : List (String × Json)}
    (h : Json.PicksFields fields (("state", .string u.tag) :: u.fieldsBesideTag)) :
    Json.PicksFields (fields.filter fun f => f.1 != "state") u.fieldsBesideTag := by
  have hrest : (("state", Json.string u.tag) :: u.fieldsBesideTag).filter
      (fun f => f.1 != "state") = u.fieldsBesideTag := by
    cases u <;> rfl
  have hfilter := h.filter fun f => f.1 != "state"
  rwa [hrest] at hfilter

/-- The fields beside the tag are values within every budget. -/
theorem fieldValues?_of_picks {others : List (String × Json)}
    (h : Json.PicksFields others u.fieldsBesideTag) :
    fieldValues? budget (Json.fieldDrafts others) = some others := by
  have hsub := h.subset
  have hcanonical : Json.CanonicalFields others := Json.canonicalFields_iff.2 fun f hf =>
    Json.canonicalFields_iff.1 u.canonical_fieldsBesideTag f (hsub hf)
  have hzero : Json.fieldsDepth u.fieldsBesideTag ≤ budget := by
    cases u <;> exact Nat.zero_le budget
  have hdepth : Json.fieldsDepth others ≤ budget := Json.fieldsDepth_le_iff.2 fun f hf =>
    Json.fieldsDepth_le_iff.1 hzero f (hsub hf)
  rw [Draft.fieldValues?_fieldDrafts hcanonical, if_pos hdepth]

/-- The tag may stand anywhere among the fields. -/
theorem ofDraft?_of_picks {fields : List (String × Json)}
    (h : Json.PicksFields fields (("state", .string u.tag) :: u.fieldsBesideTag)) :
    ofDraft? (budget + 1) (.object (Json.fieldDrafts fields)) = some u := by
  let others := fields.filter fun f => f.1 != "state"
  have hothers : Json.PicksFields others u.fieldsBesideTag := picks_besideTag h
  have hdistinct := Draft.distinctNames_named (h.nodup_names u.nodup_names) ["state"]
  have htag : fieldOf? "state" (named fields) = some (Json.string u.tag).toDraft := by
    rcases h.finds u.nodup_names List.mem_cons_self with hfound | ⟨-, hnull⟩
    · exact hfound
    · exact absurd hnull (by simp)
  have hread := ofTag?_of_picks hothers
  simp only [ofDraft?, Draft.named?_fieldDrafts, Draft.filter_fieldDrafts, htag,
    if_pos hdistinct, Option.bind_eq_bind, Option.bind_some]
  -- the fields beside the tag must be values before they are read as what they are
  show (fieldValues? budget (Json.fieldDrafts others)).bind
    (fun _ => ofTag? u.tag (.object (Json.fieldDrafts others))) = some u
  rw [fieldValues?_of_picks hothers]
  exact hread

theorem readsRearranged (u : UploadState) :
    ReadsRearranged UploadState.ofDraft? UploadState.toJson u := by
  intro budget v hv hd
  rw [toJson_eq] at hv hd
  cases budget with
  | zero => exact absurd hd (Nat.not_succ_le_zero _)
  | succ budget =>
      obtain ⟨fields, all, rfl, hpick, hall⟩ := hv
      rw [eq_of_rearrangesFields hall] at hpick
      exact ofDraft?_of_picks hpick

end UploadState

theorem Attachment.readsRearranged (a : Attachment) :
    ReadsRearranged Attachment.ofDraft? Attachment.toJson a := by
  intro budget v hv hd
  cases budget with
  | zero => exact absurd hd (Nat.not_succ_le_zero _)
  | succ budget =>
      obtain ⟨fields, hrecord, hfound⟩ := exists_record hv (by simp) hd
      simp only [List.forall_mem_cons] at hfound
      obtain ⟨htitle, hmime, hsize, hurl, hstate, hextra, -⟩ := hfound
      have hnull : UploadState.ofDraft? budget .null = none := by cases budget <;> rfl
      simp only [ofDraft?, hrecord, fieldNames, List.map_cons, List.map_nil]
      refine Option.bind_eq_some_iff.2 ⟨_, htitle.text? (by decide), ?_⟩
      refine Option.bind_eq_some_iff.2 ⟨_, hmime.text? (by decide), ?_⟩
      refine Option.bind_eq_some_iff.2 ⟨_, hsize.int64 (by decide), ?_⟩
      refine Option.bind_eq_some_iff.2 ⟨_, hurl.text? (by decide), ?_⟩
      refine Option.bind_eq_some_iff.2
        ⟨_, hstate.required a.uploadState.readsRearranged (by decide) hnull, ?_⟩
      exact Option.bind_eq_some_iff.2 ⟨_, hextra.extraData, rfl⟩

/-! ## Messages -/

theorem Message.readsRearranged (m : Message) :
    ReadsRearranged Message.ofDraft? Message.toJson m := by
  intro budget v hv hd
  cases budget with
  | zero => exact absurd hd (Nat.not_succ_le_zero _)
  | succ budget =>
      obtain ⟨fields, hrecord, hfound⟩ := exists_record hv (by simp) hd
      simp only [List.forall_mem_cons] at hfound
      obtain ⟨hid, hcid, huser, htext, hattachments, hmentioned, hcreated, hcreatedLocally,
        hupdated, hupdatedLocally, hdeleted, hextra, hstatus, hdescription, -⟩ := hfound
      have hnull : User.ofDraft? budget .null = none := by cases budget <;> rfl
      have hattachments := hattachments.required
        (readsRearranged_list fun a (_ : a ∈ m.attachments) => a.readsRearranged) (by decide) rfl
      have hmentioned := hmentioned.required
        (readsRearranged_list fun u (_ : u ∈ m.mentionedUsers) => u.readsRearranged) (by decide) rfl
      simp only [ofDraft?, hrecord, fieldNames, List.map_cons, List.map_nil]
      refine Option.bind_eq_some_iff.2 ⟨_, hid.text (by decide), ?_⟩
      refine Option.bind_eq_some_iff.2 ⟨_, hcid.text (by decide), ?_⟩
      refine Option.bind_eq_some_iff.2
        ⟨_, huser.required m.user.readsRearranged (by decide) hnull, ?_⟩
      refine Option.bind_eq_some_iff.2 ⟨_, htext.text (by decide), ?_⟩
      refine Option.bind_eq_some_iff.2 ⟨_, hattachments, ?_⟩
      refine Option.bind_eq_some_iff.2 ⟨_, hmentioned, ?_⟩
      refine Option.bind_eq_some_iff.2 ⟨_, hcreated.instant? (by decide), ?_⟩
      refine Option.bind_eq_some_iff.2 ⟨_, hcreatedLocally.instant? (by decide), ?_⟩
      refine Option.bind_eq_some_iff.2 ⟨_, hupdated.instant? (by decide), ?_⟩
      refine Option.bind_eq_some_iff.2 ⟨_, hupdatedLocally.instant? (by decide), ?_⟩
      refine Option.bind_eq_some_iff.2 ⟨_, hdeleted.instant? (by decide), ?_⟩
      refine Option.bind_eq_some_iff.2 ⟨_, hextra.extraData, ?_⟩
      refine Option.bind_eq_some_iff.2 ⟨_, hstatus.status (by decide), ?_⟩
      exact Option.bind_eq_some_iff.2 ⟨_, hdescription.text? (by decide), rfl⟩

/-! ## Texts -/

/-- A value is read back from the text of its document, and from the text of every rearrangement of
that document. -/
structure RoundTrips {α : Type} (ofDraft? : Nat → Draft → Option α) (toJson : α → Json) (a : α) :
    Prop where
  written : readDocument? ofDraft? (String.ofList (toJson a).text) = some a
  rearranged : ∀ v : Json, v.Rearranges (toJson a) →
    readDocument? ofDraft? (String.ofList v.text) = some a

theorem ReadsRearranged.roundTrips {α : Type} {ofDraft? : Nat → Draft → Option α}
    {toJson : α → Json} {a : α} (h : ReadsRearranged ofDraft? toJson a)
    (hintegral : (toJson a).Integral) (hdepth : (toJson a).depth ≤ Draft.maxDepth) :
    RoundTrips ofDraft? toJson a := by
  have hread : ∀ v : Json, v.Rearranges (toJson a) →
      readDocument? ofDraft? (String.ofList v.text) = some a := by
    intro v hv
    calc readDocument? ofDraft? (String.ofList v.text)
        = (Draft.parse? v.text).bind (ofDraft? Draft.maxDepth) := by
          rw [readDocument?, String.toList_ofList]
      _ = ofDraft? Draft.maxDepth v.toDraft := by
          rw [Draft.parse?_text (hv.integral hintegral), Option.bind_some]
      _ = some a := h Draft.maxDepth v hv hdepth
  exact ⟨hread _ (Json.Rearranges.refl _), hread⟩

/-- **Entities are read back from their texts**, with any strings and timestamps, if their numbers
are integers of 64 bits and nothing nests too deep; and so they are if the fields of their records
come in another order and those that are null are missing. -/
theorem entities_round_trip :
    (∀ u : User, u.toJson.Integral → u.toJson.depth ≤ Draft.maxDepth →
      RoundTrips User.ofDraft? User.toJson u) ∧
    (∀ c : Channel, c.toJson.Integral → c.toJson.depth ≤ Draft.maxDepth →
      RoundTrips Channel.ofDraft? Channel.toJson c) ∧
    (∀ a : Attachment, a.toJson.Integral → a.toJson.depth ≤ Draft.maxDepth →
      RoundTrips Attachment.ofDraft? Attachment.toJson a) ∧
    (∀ u : UploadState, RoundTrips UploadState.ofDraft? UploadState.toJson u) ∧
    (∀ m : Message, m.toJson.Integral → m.toJson.depth ≤ Draft.maxDepth →
      RoundTrips Message.ofDraft? Message.toJson m) := by
  refine ⟨fun u => u.readsRearranged.roundTrips, fun c => c.readsRearranged.roundTrips,
    fun a => a.readsRearranged.roundTrips, fun u => ?_, fun m => m.readsRearranged.roundTrips⟩
  have hdepth : u.toJson.depth ≤ Draft.maxDepth := by
    rw [u.depth_toJson]
    decide
  exact u.readsRearranged.roundTrips u.integral_toJson hdepth

/-- A file on its way, of which neither title nor type are known. -/
def uploadingFile : Attachment :=
  { (default : Attachment) with
    fileSize := 10, url := some "file:a", uploadState := .inProgress 5 10 }

/-- The document of such a file without its empty fields, and with the tag of its state between the
other fields. -/
def uploadingFileRearranged : Json :=
  .object
    [ ("upload_state", .object
        [("bytes_uploaded", .int 5), ("state", .string "in_progress"), ("total_bytes", .int 10)]),
      ("extra_data", .object []),
      ("file_size", .int 10),
      ("url", .string "file:a") ]

theorem uploadingFileRearranged_rearranges :
    uploadingFileRearranged.Rearranges uploadingFile.toJson := by
  let state : Json := .object
    [("bytes_uploaded", .int 5), ("state", .string "in_progress"), ("total_bytes", .int 10)]
  let empty : List (String × Json) := [("title", .null), ("mime_type", .null)]
  let file : List (String × Json) := [("file_size", .int 10), ("url", .string "file:a")]
  let rest : List (String × Json) := [("upload_state", state), ("extra_data", .object [])]
  have hstate : state.Rearranges uploadingFile.uploadState.toJson :=
    ⟨_, _, rfl, ⟨[], .swap _ _ _, fun _ hf => absurd hf List.not_mem_nil⟩, .refl _⟩
  have hpick : Json.PicksFields (rest ++ file) (empty ++ (file ++ rest)) := by
    refine ⟨empty, ?_, by simp [empty]⟩
    exact (List.perm_append_comm.append_right empty).trans List.perm_append_comm
  refine ⟨rest ++ file, empty ++ (file ++ rest), rfl, hpick, ?_⟩
  exact ⟨_, _, rfl, rfl, _, _, rfl, rfl, _, _, rfl, rfl, _, _, rfl, rfl, _, _, rfl, hstate,
    _, _, rfl, rfl, rfl⟩

/-- A message with a file on its way and a leap second in a year of five digits. -/
def uploadingFileMessage : Message :=
  { (default : Message) with
    id := "m1", attachments := [uploadingFile]
    createdAt := some ⟨⟨-12345, 12, 31, by decide⟩, 23, 59, 60, 120_000_000, by decide⟩ }

/-- Entities with such files and timestamps are read back, and the file is read from its rearranged
document. -/
theorem entities_round_trip_uploadingFile :
    readDocument? Attachment.ofDraft? (String.ofList uploadingFileRearranged.text)
      = some uploadingFile ∧
    readDocument? Message.ofDraft? (String.ofList uploadingFileMessage.toJson.text)
      = some uploadingFileMessage ∧
    readDocument? User.ofDraft? (String.ofList (User.new "alice").toJson.text)
      = some (User.new "alice") ∧
    readDocument? Channel.ofDraft? (String.ofList (Channel.new "team" "a").toJson.text)
      = some (Channel.new "team" "a") := by
  obtain ⟨husers, hchannels, hattachments, -, hmessages⟩ := entities_round_trip
  have hfile : uploadingFile.toJson.Integral := Attachment.integral_toJson trivial
  have hmessage : uploadingFileMessage.toJson.Integral := by
    refine Message.integral_toJson trivial trivial (fun a ha => ?_) fun u hu => ?_
    · rw [List.mem_singleton.1 ha]
      exact trivial
    · exact absurd hu List.not_mem_nil
  have huser : (User.new "alice").toJson.Integral := User.integral_toJson trivial
  have hchannel : (Channel.new "team" "a").toJson.Integral := Channel.integral_toJson trivial
  exact ⟨(hattachments _ hfile (by decide)).rearranged _ uploadingFileRearranged_rearranges,
    (hmessages _ hmessage (by decide)).written, (husers _ huser (by decide)).written,
    (hchannels _ hchannel (by decide)).written⟩

end OfflineChat
