import OfflineChat.Store.Affinity

/-! # Table schemas

The columns of the three tables, and what a table does with cells that are put into it past the
typed writers: a column converts what it is given, takes its default if it is left out, and must not
be empty if it is required. Main definitions: `ColumnSpec`, `TableSpec`, the tables
`TableSpec.users`, `TableSpec.channels` and `TableSpec.messages`, and `TableSpec.row`. -/

set_option autoImplicit false

namespace OfflineChat

/-! ## Columns and tables -/

/-- A column of a table. -/
structure ColumnSpec where
  name : String
  affinity : Affinity
  required : Bool
  fallback : Cell

namespace ColumnSpec

/-- A text that must be given. -/
def text (name : String) : ColumnSpec := ⟨name, .text, true, .null⟩

/-- A text that may be empty. -/
def text? (name : String) : ColumnSpec := ⟨name, .text, false, .null⟩

/-- A text with a default. -/
def textOr (fallback : String) (name : String) : ColumnSpec := ⟨name, .text, true, .text fallback⟩

/-- An integer that must be given. -/
def integer (name : String) : ColumnSpec := ⟨name, .integer, true, .null⟩

/-- An integer that may be empty. -/
def integer? (name : String) : ColumnSpec := ⟨name, .integer, false, .null⟩

/-- An integer with the default 0. -/
def integerOrZero (name : String) : ColumnSpec := ⟨name, .integer, true, .integer 0⟩

end ColumnSpec

/-- A table: its name and its columns. The first column is the key. -/
structure TableSpec where
  name : String
  columns : List ColumnSpec

namespace TableSpec

/-- The table of users. -/
def users : TableSpec where
  name := "users"
  columns :=
    [.text "id", .text? "original_id", .text "role", .text? "name", .text? "image",
      .text? "created_at", .text? "updated_at", .text? "last_active", .integerOrZero "invisible",
      .integerOrZero "banned", .textOr "[]" "mutes", .textOr "\x7b\x7d" "extra_data"]

/-- The table of channels. -/
def channels : TableSpec where
  name := "channels"
  columns :=
    [.text "cid", .text "type", .text "channel_id", .integerOrZero "cooldown",
      .integerOrZero "frozen", .integer? "hidden", .text "created_by_user_id",
      .integerOrZero "member_count", .text? "last_message_id", .text? "last_message_at",
      .text? "created_at", .text? "updated_at", .text? "deleted_at", .textOr "" "team",
      .textOr "\x7b\x7d" "extra_data", .integer "sync_status"]

/-- The table of messages. -/
def messages : TableSpec where
  name := "messages"
  columns :=
    [.text "id", .text "cid", .text "user_id", .textOr "" "text", .textOr "[]" "attachments",
      .textOr "[]" "mentioned_user_ids", .text? "created_at", .text? "created_locally_at",
      .text? "updated_at", .text? "updated_locally_at", .text? "deleted_at",
      .textOr "\x7b\x7d" "extra_data", .integer "sync_status", .text? "sync_description"]

/-- The name of the key column. -/
def keyColumn (t : TableSpec) : String := (t.columns.head?.map ColumnSpec.name).getD ""

/-- Two names of a table or column are the same but for the case of letters from A to Z. -/
def sameName (a b : String) : Bool := a.toLower == b.toLower

/-- A name that belongs to one of the columns. -/
def hasColumn (t : TableSpec) (name : String) : Bool :=
  t.columns.any fun c => sameName c.name name

/-- The cell of a column among the cells that are given. -/
def given (cells : List (String × Cell)) (c : ColumnSpec) : Cell :=
  c.affinity.convert (((cells.find? fun p => sameName p.1 c.name).map Prod.snd).getD c.fallback)

/-- The row that the given cells make, unless one has no column or a required one is empty. -/
def row (t : TableSpec) (cells : List (String × Cell)) : Except StoreError Row :=
  match cells.find? fun p => !t.hasColumn p.1 with
  | some (name, _) => .error (.unknownColumn t.name name)
  | none =>
      match t.columns.find? fun c => c.required && given cells c == .null with
      | some c => .error (.missingValue t.name c.name)
      | none => .ok ⟨t.columns.map (given cells)⟩

end TableSpec

end OfflineChat
