import OfflineChat.Json.Draft

/-! # Written documents

How document values are written: compactly, as the texts of their tokens one after another
(`Json.text`, and `Json.asciiText` in ASCII only), or with one item a line (`Json.pretty`). Also the
draft that a written value parses to (`Json.toDraft`). -/

set_option autoImplicit false

namespace OfflineChat.Json

/-! ## Compact text -/

mutual

/-- The tokens of a value. -/
def tokens : Json → List Token
  | .null => [.null]
  | .bool b => [.bool b]
  | .number n => [.number (some n)]
  | .string s => [.string (some s)]
  | .array items => .beginArray :: (itemTokens items ++ [.endArray])
  | .object fields => .beginObject :: (fieldTokens fields ++ [.endObject])

/-- The tokens of items with commas between them. -/
def itemTokens : List Json → List Token
  | [] => []
  | [v] => tokens v
  | v :: vs => tokens v ++ .comma :: itemTokens vs

/-- The tokens of fields with commas between them. -/
def fieldTokens : List (String × Json) → List Token
  | [] => []
  | [(key, v)] => .string (some key) :: .colon :: tokens v
  | (key, v) :: fs => .string (some key) :: .colon :: (tokens v ++ .comma :: fieldTokens fs)

end

/-- The compact text of a value. -/
def text (v : Json) : List Char := v.tokens.flatMap Token.text

mutual

/-- The draft that the text of a value parses to. -/
def toDraft : Json → Draft
  | .null => .null
  | .bool b => .bool b
  | .number n => .number (some n)
  | .string s => .string (some s)
  | .array items => .array (itemDrafts items)
  | .object fields => .object (fieldDrafts fields)

/-- The drafts of all items. -/
def itemDrafts : List Json → List Draft
  | [] => []
  | v :: vs => toDraft v :: itemDrafts vs

/-- The drafts of all fields. -/
def fieldDrafts : List (String × Json) → List (Option String × Draft)
  | [] => []
  | (key, v) :: fs => (some key, toDraft v) :: fieldDrafts fs

end

/-! ## Text in ASCII -/

/-- A UTF-16 code unit as an escape. -/
def unitEscape (n : Nat) : List Char := '\\' :: 'u' :: (Nat.toDigits 16 n).leftpad 4 '0'

/-- A character of a text, where all but printable ASCII is written by its code units. -/
def asciiChar (c : Char) : List Char :=
  let n := c.toNat
  if n < 0x7F then [c]
  else if n < 0x10000 then unitEscape n
  else unitEscape (0xD800 + (n - 0x10000) / 0x400) ++ unitEscape (0xDC00 + (n - 0x10000) % 0x400)

/-- The compact text of a value in printable ASCII. -/
def asciiText (v : Json) : List Char := v.text.flatMap asciiChar

/-! ## Text with one item a line -/

/-- A new line, indented two spaces per level. -/
def newLine (level : Nat) : List Char := '\n' :: List.replicate (2 * level) ' '

mutual

/-- The text of a value with one item or field a line. -/
def prettyAt (level : Nat) : Json → List Char
  | .array [] => ['[', ']']
  | .array items => '[' :: (prettyItems (level + 1) items ++ newLine level ++ [']'])
  | .object [] => ['\x7b', '\x7d']
  | .object fields => '\x7b' :: (prettyFields (level + 1) fields ++ newLine level ++ ['\x7d'])
  | v => v.text

/-- The lines of all items. -/
def prettyItems (level : Nat) : List Json → List Char
  | [] => []
  | [v] => newLine level ++ prettyAt level v
  | v :: vs => newLine level ++ prettyAt level v ++ ',' :: prettyItems level vs

/-- The lines of all fields. -/
def prettyFields (level : Nat) : List (String × Json) → List Char
  | [] => []
  | [(key, v)] => newLine level ++ Token.quoted key.toList ++ ':' :: ' ' :: prettyAt level v
  | (key, v) :: fs =>
      newLine level ++ Token.quoted key.toList ++ ':' :: ' ' :: prettyAt level v ++
        ',' :: prettyFields level fs

end

/-- The text of a value with one item or field a line. -/
def pretty (v : Json) : List Char := v.prettyAt 0

end OfflineChat.Json
