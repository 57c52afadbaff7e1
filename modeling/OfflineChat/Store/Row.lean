import OfflineChat.Keyed
import OfflineChat.Store.Error

/-! # Rows

A row is a list of cells, and a cell is empty or holds an integer, a real number or a text. Main
definitions: `Cell`, `Row` (keyed by its first cell) and the readers of a cell at a column:
`Row.text`, `Row.text?`, `Row.int32`, `Row.bool` and `Row.bool?`. The question mark means that the
cell may be empty. -/

set_option autoImplicit false

namespace OfflineChat

/-- The value of one column of a row. -/
inductive Cell where
  | null
  | integer (n : Int)
  | real (bits : UInt64)
  | text (s : String)
  deriving DecidableEq, Inhabited

namespace Cell

/-- The kind of value that a cell holds. -/
def kind : Cell → CellKind
  | null => .null
  | integer _ => .integer
  | real _ => .real
  | text _ => .text

/-- A text or nothing. -/
def ofText? : Option String → Cell
  | none => null
  | some s => text s

/-- A truth value, as 0 or 1. -/
def ofBool (b : Bool) : Cell := integer (if b then 1 else 0)

/-- A truth value or nothing. -/
def ofBool? : Option Bool → Cell
  | none => null
  | some b => ofBool b

/-- An integer of 32 bits. -/
def ofInt32 (n : Int32) : Cell := integer n.toInt

end Cell

/-- A row of a table. -/
structure Row where
  cells : List Cell
  deriving DecidableEq

namespace Row

/-- The cell at a column. -/
def cell (r : Row) (index : Nat) : Cell := r.cells.getD index .null

/-- The text of the first cell. -/
def keyText (r : Row) : String :=
  match r.cell 0 with
  | .text s => s
  | _ => ""

instance : Keyed Row := ⟨keyText⟩

/-! ## Reading cells

A column is named by its place and its name; both go into the failure. -/

/-- A text. -/
def text (r : Row) (index : Nat) (column : String) : Except StoreError String :=
  match r.cell index with
  | .text s => .ok s
  | c => .error (.wrongKind index column c.kind)

/-- A text or nothing. -/
def text? (r : Row) (index : Nat) (column : String) : Except StoreError (Option String) :=
  match r.cell index with
  | .null => .ok none
  | .text s => .ok (some s)
  | c => .error (.wrongKind index column c.kind)

/-- An integer of 32 bits. -/
def int32 (r : Row) (index : Nat) (column : String) : Except StoreError Int32 :=
  match r.cell index with
  | .integer n =>
      if -0x8000_0000 ≤ n ∧ n < 0x8000_0000 then .ok (Int32.ofInt n)
      else .error (.outOfRange index n)
  | c => .error (.wrongKind index column c.kind)

/-- A truth value: zero is false, every other integer true. -/
def bool (r : Row) (index : Nat) (column : String) : Except StoreError Bool :=
  match r.cell index with
  | .integer n => .ok (n != 0)
  | c => .error (.wrongKind index column c.kind)

/-- A truth value or nothing. -/
def bool? (r : Row) (index : Nat) (column : String) : Except StoreError (Option Bool) :=
  match r.cell index with
  | .null => .ok none
  | .integer n => .ok (some (n != 0))
  | c => .error (.wrongKind index column c.kind)

end Row

end OfflineChat
