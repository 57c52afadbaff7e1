import OfflineChat.Json.Access
import OfflineChat.Store.Database

/-! # Images of a database

How a database lies in a file: as one document that holds the version of the schema and, table by
table, the cells of every row. This format is the project's own: it stands in for the persistence of
SQLite, whose files are not modelled, and keeps of a database what such a file keeps. A cell that is
empty, an integer or a text stands for itself; a real number is an object that holds its bits, so
that it can be neither rounded nor taken for an integer. Main definitions, in pairs of writer and
reader: `Cell.toJson` and `Cell.ofJson?`, `DatabaseFile.image` and `DatabaseFile.ofImage?`; and
`Database.reopen`. -/

set_option autoImplicit false

namespace OfflineChat

/-! ## Cells and rows -/

namespace Cell

/-- The document value of a cell. -/
def toJson : Cell → Json
  | null => .null
  | integer n => .int n
  | real bits => .object [("bits", .int bits.toNat)]
  | text s => .string s

/-- The cell that a document value stands for. -/
def ofJson? : Json → Option Cell
  | .null => some null
  | .number (.int n) => some (integer n)
  | .string s => some (text s)
  | .object [("bits", .number (.int n))] =>
      if 0 ≤ n ∧ n < 0x1_0000_0000_0000_0000 then some (real (.ofNat n.toNat)) else none
  | _ => none

theorem ofJson?_toJson (c : Cell) : ofJson? c.toJson = some c := by
  cases c with
  | null => rfl
  | integer n => rfl
  | real bits =>
      have fits := bits.toNat_lt
      simp only [toJson, ofJson?, Json.int, Int.toNat_natCast, UInt64.ofNat_toNat]
      exact if_pos (by omega)
  | text s => rfl

end Cell

namespace Row

/-- The document value of a row. -/
def toJson (r : Row) : Json := .array (r.cells.map Cell.toJson)

/-- The row that a document value stands for. -/
def ofJson? (v : Json) : Option Row := (v.list? Cell.ofJson?).map Row.mk

end Row

/-! ## Files -/

namespace Table

/-- The document value of a table. -/
def toJson (t : Table Row) : Json := .array (t.rows.map Row.toJson)

/-- The table that a document value stands for. -/
def ofJson? (v : Json) : Option (Table Row) := (v.list? Row.ofJson?).map Table.ofList

end Table

namespace DatabaseFile

/-- The document value of a file; a table that has not been set up is null. -/
def toJson (f : DatabaseFile) : Json :=
  .object
    [ ("version", .int f.version),
      ("users", .ofOption Table.toJson f.users),
      ("channels", .ofOption Table.toJson f.channels),
      ("messages", .ofOption Table.toJson f.messages) ]

/-- The file that a document value stands for. -/
def ofJson? (v : Json) : Option DatabaseFile := do
  return {
    version := ← (v.field "version").int?
    users := ← (v.field "users").nullable Table.ofJson?
    channels := ← (v.field "channels").nullable Table.ofJson?
    messages := ← (v.field "messages").nullable Table.ofJson? }

/-- The text of a file. -/
def image (f : DatabaseFile) : String := String.ofList f.toJson.text

/-- The file that has this text. A file that was just made is empty. -/
def ofImage? (text : String) : Option DatabaseFile :=
  if text = "" then some blank else (Draft.valueOf? text.toList).bind ofJson?

end DatabaseFile

/-- The database closed and opened again: what its file holds is read and brought up to date. -/
def Database.reopen (db : Database) : Except StoreError Database :=
  ((DatabaseFile.ofImage? db.file.image).getD .blank).opened db.path

end OfflineChat
