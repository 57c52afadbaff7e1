import OfflineChat.Json.Printer
import OfflineChat.Time.Loose

/-! # Records in documents

How a record with named fields is read from a parsed document: as an object, whose unknown fields
are skipped and whose known fields occur at most once, or as an array of all fields in order. Main
definitions: `Draft.record?` and the readers of single fields. A field that may be empty may also be
missing or null. -/

set_option autoImplicit false

namespace OfflineChat

namespace Draft

/-! ## Fields of a record -/

/-- The field of this name, if there is one. -/
def fieldOf? (name : String) (fields : List (String × Draft)) : Option Draft :=
  (fields.find? fun f => f.1 == name).map Prod.snd

/-- The names are those of some of the fields, each at most once. -/
def DistinctNames (names : List String) (fields : List (String × Draft)) : Prop :=
  ((fields.map Prod.fst).filter (names.contains ·)).Nodup

instance (names : List String) (fields : List (String × Draft)) :
    Decidable (DistinctNames names fields) := inferInstanceAs (Decidable (List.Nodup _))

/-- The fields with their names, if all names can be read. -/
def named? : List (Option String × Draft) → Option (List (String × Draft))
  | [] => some []
  | (none, _) :: _ => none
  | (some name, d) :: fields => (named? fields).map ((name, d) :: ·)

/-- The fields of a record with these names, in the order of the names. -/
def record? (names : List String) : Draft → Option (List (Option Draft))
  | .array items => if items.length = names.length then some (items.map some) else none
  | .object fields =>
      match named? fields with
      | some fields =>
          if DistinctNames names fields then some (names.map fun n => fieldOf? n fields) else none
      | none => none
  | _ => none

/-! ## Single values -/

/-- A text. -/
def text? : Draft → Option String
  | .string s => s
  | _ => none

/-- A truth value. -/
def bool? : Draft → Option Bool
  | .bool b => some b
  | _ => none

/-- An integer between `low` and `high`. -/
def intWithin? (low high : Int) : Draft → Option Int
  | .number (some (.int n)) => if low ≤ n ∧ n ≤ high then some n else none
  | _ => none

/-- An integer of 32 bits. -/
def int32? (d : Draft) : Option Int32 := (d.intWithin? (-0x8000_0000) 0x7FFF_FFFF).map Int32.ofInt

/-- An integer of 64 bits. -/
def int64? (d : Draft) : Option Int64 :=
  (d.intWithin? (-0x8000_0000_0000_0000) 0x7FFF_FFFF_FFFF_FFFF).map Int64.ofInt

/-- A loosely written timestamp. -/
def instant? (d : Draft) : Option Instant := d.text?.bind fun s => Instant.ofLoose? s.toList

/-- An array, read item by item. -/
def list? {α : Type} (item? : Nat → Draft → Option α) (depth : Nat) : Draft → Option (List α)
  | .array items =>
      match depth with
      | 0 => none
      | depth + 1 => items.mapM (item? depth)
  | _ => none

/-- A list of texts. -/
def texts? (depth : Nat) (d : Draft) : Option (List String) := d.list? (fun _ => text?) depth

/-- Further data: an object. -/
def extraData? (depth : Nat) (d : Draft) : Option ExtraData :=
  match h : d.value? depth with
  | some (.object fields) => some ⟨fields, canonical_of_value? h⟩
  | _ => none

/-- A field that must be there. -/
def required {α : Type} (value? : Draft → Option α) (field : Option Draft) : Option α :=
  field.bind value?

/-- A field that may be missing or null. -/
def optional {α : Type} (value? : Draft → Option α) : Option Draft → Option (Option α)
  | none => some none
  | some .null => some none
  | some d => (value? d).map some

end Draft

namespace Json

/-- The value, or null. -/
def ofOption {α : Type} (f : α → Json) : Option α → Json
  | none => .null
  | some a => f a

/-- A timestamp as a document writes it. -/
def ofInstant (t : Instant) : Json := .string (String.ofList t.documentText)

/-- A list of texts. -/
def ofTexts (texts : List String) : Json := .array (texts.map .string)

end Json

end OfflineChat
