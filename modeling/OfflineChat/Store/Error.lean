/-! # Failures of the store

What can go wrong when rows are read, written or migrated, and the text of each failure. Main
definitions: `StoreError` and `StoreError.message`. -/

set_option autoImplicit false

namespace OfflineChat

/-- The kinds of values that a cell can hold. -/
inductive CellKind where
  | null
  | integer
  | real
  | text
  deriving DecidableEq

/-- The name of a kind. -/
def CellKind.name : CellKind → String
  | null => "Null"
  | integer => "Integer"
  | real => "Real"
  | text => "Text"

/-- What the text of a cell should have been. -/
inductive TextForm where
  | timestamp
  | json
  deriving DecidableEq

/-- The failure of a store call. Columns are counted from 0 in the order in which they are
selected. -/
inductive StoreError where
  /-- The text of a cell cannot be read. -/
  | unreadable (index : Nat) (form : TextForm)
  /-- The integer of a cell is none of those allowed. -/
  | outOfRange (index : Nat) (value : Int)
  /-- A cell holds a value of the wrong kind. -/
  | wrongKind (index : Nat) (column : String) (found : CellKind)
  /-- A row lacks a value that its table requires. -/
  | missingValue (table column : String)
  /-- A table has a row with this key already. -/
  | duplicateKey (table column : String)
  /-- There is no table of this name. -/
  | unknownTable (table : String)
  /-- A table has no column of this name. -/
  | unknownColumn (table column : String)
  /-- The tables come from a later version of the schema. -/
  | newerSchema (version supported : Int)
  /-- The medium failed. -/
  | medium (message : String)
  deriving DecidableEq

namespace StoreError

/-- The failure without the part of the store that reports it. -/
def detail : StoreError → String
  | unreadable index _ => s!"Conversion error from type Text at index: {index}"
  | outOfRange index value => s!"Integer {value} out of range at index {index}"
  | wrongKind index column found =>
      "Invalid column type " ++ found.name ++ s!" at index: {index}, name: {column}"
  | missingValue table column => s!"NOT NULL constraint failed: {table}.{column}"
  | duplicateKey table column => s!"UNIQUE constraint failed: {table}.{column}"
  | unknownTable table => "no such table: " ++ table
  | unknownColumn table column => s!"table {table} has no column named {column}"
  | newerSchema version supported =>
      s!"database schema v{version} is newer than supported v{supported}"
  | medium message => message

/-- The text of a failure. -/
def message (e : StoreError) : String :=
  match e with
  | newerSchema _ _ => "Migration error: " ++ e.detail
  | medium _ => "IO error: " ++ e.detail
  | _ => "Database error: " ++ e.detail

/-- The text of a failure as the layers above the store report it. -/
def report (e : StoreError) : String := "Store error: " ++ e.message

end StoreError

end OfflineChat
