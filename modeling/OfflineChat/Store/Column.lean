import OfflineChat.Entity.Document
import OfflineChat.Store.Row

/-! # Columns with texts of their own

How timestamps, statuses, lists and further data are held in cells. Timestamps are fixed-width text,
a status is its code, lists and further data are documents. Main definitions, in pairs of writer and
reader: `Column.ofInstant?` and `Column.instant?`, `Column.ofTexts` and `Column.texts`,
`Column.ofAttachments` and `Column.attachments`, `Column.ofExtraData` and `Column.extraData`;
`Column.status` reads a code. -/

set_option autoImplicit false

namespace OfflineChat.Column

/-! ## Timestamps -/

/-- The stored text of a timestamp. -/
def ofInstant? (t : Option Instant) : Option String := t.map fun t => String.ofList t.storedText

/-- The timestamp that a stored text stands for. -/
def instant? (index : Nat) : Option String → Except StoreError (Option Instant)
  | none => .ok none
  | some s =>
      match Instant.ofStored? s.toList with
      | some t => .ok (some t)
      | none => .error (.unreadable index .timestamp)

/-! ## Status -/

/-- The status with a stored code. -/
def status (index : Nat) (code : Int) : Except StoreError SyncStatus :=
  match SyncStatus.ofCode? code with
  | some s => .ok s
  | none => .error (.outOfRange index code)

/-! ## Documents -/

/-- The stored text of a document. -/
def ofJson (v : Json) : String := String.ofList v.text

/-- A column without a document: empty, an empty text, or the text of null. -/
def isBlank : Option String → Bool
  | none => true
  | some s => s = "" || s = "null"

/-- A document of some kind, where a blank column stands for `blank`. -/
def document {α : Type} (ofDraft? : Nat → Draft → Option α) (blank : α) (index : Nat)
    (raw : Option String) : Except StoreError α :=
  if isBlank raw then .ok blank
  else
    match readDocument? ofDraft? (raw.getD "") with
    | some a => .ok a
    | none => .error (.unreadable index .json)

/-- The stored text of a list of texts. -/
def ofTexts (texts : List String) : String := ofJson (.ofTexts texts)

/-- The list of texts that a column holds. -/
def texts (index : Nat) (raw : Option String) : Except StoreError (List String) :=
  document Draft.texts? [] index raw

/-- The stored text of a list of attachments. -/
def ofAttachments (attachments : List Attachment) : String :=
  ofJson (.array (attachments.map Attachment.toJson))

/-- The attachments that a column holds. -/
def attachments (index : Nat) (raw : Option String) : Except StoreError (List Attachment) :=
  document (Draft.list? Attachment.ofDraft?) [] index raw

/-- The stored text of further data. -/
def ofExtraData (x : ExtraData) : String := ofJson x.toJson

/-- The further data that a column holds. -/
def extraData (index : Nat) (raw : Option String) : Except StoreError ExtraData :=
  document Draft.extraData? .empty index raw

end OfflineChat.Column
