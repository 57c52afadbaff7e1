import OfflineChat.Json.Basic

/-! # Access to document values

The parts of a document value that is already known to be one: fields of an object, items of an
array, and single values. A field that is missing reads as null. -/

set_option autoImplicit false

namespace OfflineChat.Json

/-- The fields of an object. -/
def fields? : Json → Option (List (String × Json))
  | object fields => some fields
  | _ => none

/-- The items of an array. -/
def items? : Json → Option (List Json)
  | array items => some items
  | _ => none

/-- The field of this name, if there is one. -/
def field? (v : Json) (name : String) : Option Json :=
  (v.fields?.getD []).findSome? fun f => if f.1 = name then some f.2 else none

/-- The field of this name, or null. -/
def field (v : Json) (name : String) : Json := (v.field? name).getD null

/-- A text. -/
def text? : Json → Option String
  | string s => some s
  | _ => none

/-- An integer. -/
def int? : Json → Option Int
  | number (.int n) => some n
  | _ => none

/-- An integer that is not negative. -/
def nat? (v : Json) : Option Nat := v.int?.bind Int.toNat?

/-- A list, read item by item. -/
def list? {α : Type} (f : Json → Option α) (v : Json) : Option (List α) := v.items?.bind (·.mapM f)

/-- Nothing for null, else a value. -/
def nullable {α : Type} (f : Json → Option α) : Json → Option (Option α)
  | null => some none
  | v => (f v).map some

/-- The truth value, where everything else counts as false. -/
def isTrue : Json → Bool
  | bool b => b
  | _ => false

end OfflineChat.Json
