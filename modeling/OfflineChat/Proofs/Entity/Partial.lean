import OfflineChat.Entity.Partial
import OfflineChat.Proofs.Entity.Rearranged

/-! # Entities given in part are read

A document that gives some fields of an entity stands for that entity if the entity is as the base
in all other fields. Main definition: `Json.Completes`. Main statements: for each type the entity
that such a document gives, as `Channel.amended?_of_completes` and `Message.amended?_of_completes`;
in particular an entity amended by its own document is itself, and so it is amended by nothing. -/

set_option autoImplicit false

namespace OfflineChat

namespace Json

/-- Every field is given as `whole` has it, or is not given and is in `whole` as in `base`. -/
def Completes (base given whole : Json) : Prop :=
  ∀ name, given.field? name = whole.field? name ∨
    given.field? name = none ∧ base.field? name = whole.field? name

theorem completes_full (base whole : Json) : Completes base whole whole := fun _ => .inl rfl

theorem completes_nothing (base : Json) : Completes base (object []) base :=
  fun _ => .inr ⟨rfl, rfl⟩

theorem field?_cons_self (f : String × Json) (fields : List (String × Json)) :
    (object (f :: fields)).field? f.1 = some f.2 := by
  simp [field?, fields?]

theorem field?_cons_of_ne {f : String × Json} {name : String} (h : f.1 ≠ name)
    (fields : List (String × Json)) :
    (object (f :: fields)).field? name = (object fields).field? name := by
  simp [field?, fields?, h]

theorem field?_of_mem {fields : List (String × Json)} (hn : (fields.map Prod.fst).Nodup)
    {f : String × Json} (hf : f ∈ fields) : (object fields).field? f.1 = some f.2 := by
  induction fields with
  | nil => exact absurd hf List.not_mem_nil
  | cons g fields ih =>
      obtain ⟨hg, hn⟩ := List.nodup_cons.1 hn
      rcases List.mem_cons.1 hf with rfl | hf
      · exact field?_cons_self f fields
      · have hne : g.1 ≠ f.1 := fun h => hg (h ▸ List.mem_map_of_mem hf)
        rw [field?_cons_of_ne hne, ih hn hf]

/-- Fields of distinct names are their names, each with the value found under it. -/
theorem map_field_names {fields : List (String × Json)} (hn : (fields.map Prod.fst).Nodup) :
    (fields.map Prod.fst).map (fun name => (name, (object fields).field name)) = fields := by
  have hself : ∀ f ∈ fields, (f.1, (object fields).field f.1) = id f := by
    intro f hf
    rw [field, field?_of_mem hn hf]
    rfl
  rw [List.map_map]
  exact (List.map_congr_left hself).trans (List.map_id fields)

/-- Where base and whole have the same fields, what is given makes up the whole. -/
theorem Completes.overlay_eq {base whole : List (String × Json)} {given : Json}
    (h : Completes (object base) given (object whole))
    (hnames : base.map Prod.fst = whole.map Prod.fst) (hn : (whole.map Prod.fst).Nodup) :
    (object base).overlay given = object whole := by
  have hvalue : ∀ f ∈ base,
      (f.1, (given.field? f.1).getD f.2) = (f.1, (object whole).field f.1) := by
    intro f hf
    have hbase : (object base).field? f.1 = some f.2 := field?_of_mem (hnames ▸ hn) hf
    have hnamed : f.1 ∈ whole.map Prod.fst := hnames ▸ List.mem_map_of_mem hf
    obtain ⟨w, hw, hname⟩ := List.mem_map.1 hnamed
    have hwhole : (object whole).field? f.1 = some w.2 := hname ▸ field?_of_mem hn hw
    rcases h f.1 with hgiven | ⟨hgiven, hsame⟩
    · rw [hgiven, field, hwhole]
      rfl
    · rw [hgiven, field, ← hsame, hbase]
      rfl
  calc (object base).overlay given
      = object ((base.map Prod.fst).map fun name => (name, (object whole).field name)) := by
        rw [overlay, List.map_congr_left hvalue, List.map_map]
        rfl
    _ = object whole := by rw [hnames, map_field_names hn]

/-- The document of an entity is read as that entity. -/
theorem decode?_toJson {α : Type} {ofDraft? : Nat → Draft → Option α} {toJson : α → Json} {a : α}
    (h : ReadsRearranged ofDraft? toJson a) (hd : (toJson a).depth ≤ 2 * Draft.maxDepth) :
    (toJson a).decode? ofDraft? = some a :=
  h _ _ (.refl _) hd

/-- The readers of users and attachments take every item that is given in full as it is. -/
theorem mapItems_map {α : Type} {f : Json → Json} {toJson : α → Json}
    (h : ∀ a, f (toJson a) = toJson a) (as : List α) :
    (array (as.map toJson)).mapItems f = array (as.map toJson) := by
  simp only [mapItems, List.map_map, Function.comp_def, h]

end Json

/-! ## Users and attachments -/

section

variable {fields : List (String × Json)}

theorem User.completed_eq {u : User}
    (h : Json.Completes (User.new "").toJson (.object fields) u.toJson) :
    User.completed (.object fields) = u.toJson :=
  h.overlay_eq rfl (by simp)

/-- A user is given by what sets it apart from a user of no id. -/
theorem User.given?_of_completes {u : User}
    (h : Json.Completes (User.new "").toJson (.object fields) u.toJson)
    (hd : u.toJson.depth ≤ 2 * Draft.maxDepth) : User.given? (.object fields) = some u := by
  rw [given?, completed_eq h, Json.decode?_toJson u.readsRearranged hd]

/-- A user of whom only the id is known is given by the id alone. -/
theorem User.given?_id (id : String) : User.given? (.string id) = some (User.new id) := by
  have hdepth : (User.new id).toJson.depth = 2 := rfl
  exact Json.decode?_toJson (User.new id).readsRearranged (hdepth.le.trans (by decide))

theorem Attachment.completed_eq {a : Attachment}
    (h : Json.Completes (default : Attachment).toJson (.object fields) a.toJson) :
    Attachment.completed (.object fields) = a.toJson :=
  h.overlay_eq rfl (by simp)

/-- An attachment is given by what sets it apart from an empty one. -/
theorem Attachment.given?_of_completes {a : Attachment}
    (h : Json.Completes (default : Attachment).toJson (.object fields) a.toJson)
    (hd : a.toJson.depth ≤ 2 * Draft.maxDepth) : Attachment.given? (.object fields) = some a := by
  rw [given?, completed_eq h, Json.decode?_toJson a.readsRearranged hd]

end

/-! ## Channels -/

/-- A channel that is amended by what sets another one apart from it becomes that one. -/
theorem Channel.amended?_of_completes {c d : Channel} {given : Json}
    (h : Json.Completes c.toJson given d.toJson) (hd : d.toJson.depth ≤ 2 * Draft.maxDepth) :
    c.amended? given = some d := by
  have hwhole : c.toJson.overlay given = d.toJson := h.overlay_eq rfl (by simp)
  rw [amended?, hwhole, Json.decode?_toJson d.readsRearranged hd]

/-- A channel is given by its type and id, and by what sets it apart from a new channel of these. -/
theorem Channel.given?_of_completes {d : Channel} {fields : List (String × Json)}
    (htype : (Json.object fields).field? "channel_type" = some (.string d.type))
    (hid : (Json.object fields).field? "channel_id" = some (.string d.id))
    (h : Json.Completes (Channel.new d.type d.id).toJson (.object fields) d.toJson)
    (hd : d.toJson.depth ≤ 2 * Draft.maxDepth) : Channel.given? (.object fields) = some d := by
  have hbase : Channel.given? (.object fields)
      = (Channel.new d.type d.id).amended? (.object fields) := by
    simp only [given?, Json.field, htype, hid, Option.getD_some, Json.text?]
  rw [hbase, amended?_of_completes h hd]

example : Channel.given? (.object
    [("frozen", .bool true), ("channel_id", .string "a"), ("channel_type", .string "team")])
      = some { Channel.new "team" "a" with frozen := true } := rfl

/-! ## Messages -/

/-- Users and attachments in a message that is given in full are complete. -/
theorem Message.map_completedField {m : Message} {fields : List (String × Json)}
    (h : m.toJson = .object fields) : fields.map completedField = fields := by
  have huser : ∀ u : User, User.completed u.toJson = u.toJson := fun u =>
    User.completed_eq (Json.completes_full _ _)
  have hattachment : ∀ a : Attachment, Attachment.completed a.toJson = a.toJson := fun a =>
    Attachment.completed_eq (Json.completes_full _ _)
  cases h
  simp only [List.map_cons, List.map_nil, completedField, huser, Json.mapItems_map huser,
    Json.mapItems_map hattachment]
  rfl

/-- A message that is amended by what sets another one apart from it becomes that one. -/
theorem Message.amended?_of_completes {m n : Message} {given : Json}
    (h : Json.Completes m.toJson given n.toJson) (hd : n.toJson.depth ≤ 2 * Draft.maxDepth) :
    m.amended? given = some n := by
  have hwhole : m.toJson.overlay given = n.toJson := h.overlay_eq rfl (by simp)
  have hfields : ∃ fields, n.toJson = .object fields := ⟨_, rfl⟩
  obtain ⟨fields, hfields⟩ := hfields
  have hread : (Json.object fields).decode? ofDraft? = some n :=
    hfields ▸ Json.decode?_toJson n.readsRearranged hd
  rw [amended?, hwhole, hfields]
  show (Json.object (fields.map completedField)).decode? ofDraft? = some n
  rw [map_completedField hfields, hread]

example (m : Message) (hd : m.toJson.depth ≤ 2 * Draft.maxDepth) :
    m.amended? (.object []) = some m :=
  Message.amended?_of_completes (Json.completes_nothing _) hd

/-- A message is given by what sets it apart from one of which nothing is known. -/
theorem Message.given?_of_completes {m : Message} {given : Json}
    (h : Json.Completes (default : Message).toJson given m.toJson)
    (hd : m.toJson.depth ≤ 2 * Draft.maxDepth) : Message.given? given = some m :=
  amended?_of_completes h hd

end OfflineChat
