import OfflineChat.Json.Basic

/-! # Tokens of a document

A document text as a list of tokens. Numbers and strings that are well written but stand for no
number or no text (too large, half of a surrogate pair) are kept as empty tokens, since a reader may
skip them. Main definitions: `Token`, `Token.scan?` and `Token.text`, the way a token is written. -/

set_option autoImplicit false

namespace OfflineChat

/-- A token of a document text. -/
inductive Token where
  | beginObject
  | endObject
  | beginArray
  | endArray
  | colon
  | comma
  | null
  | bool (b : Bool)
  | number (n : Option Number)
  | string (s : Option String)

namespace Token

/-! ## Writing -/

/-- A hexadecimal digit in lower case. -/
def hexDigit (n : Nat) : Char := Nat.digitChar n

/-- A character inside quotes: quotes, backslashes and control characters are escaped. -/
def escaped (c : Char) : List Char :=
  if c = '"' then ['\\', '"']
  else if c = '\\' then ['\\', '\\']
  else if 0x20 ≤ c.toNat then [c]
  else if c.toNat = 8 then ['\\', 'b']
  else if c.toNat = 12 then ['\\', 'f']
  else if c = '\n' then ['\\', 'n']
  else if c = '\r' then ['\\', 'r']
  else if c = '\t' then ['\\', 't']
  else ['\\', 'u', '0', '0', hexDigit (c.toNat / 16), hexDigit (c.toNat % 16)]

/-- A text in quotes. -/
def quoted (cs : List Char) : List Char := '"' :: (cs.flatMap escaped ++ ['"'])

/-- An integer in decimal. -/
def intText (n : Int) : List Char :=
  if n < 0 then '-' :: Nat.toDigits 10 n.natAbs else Nat.toDigits 10 n.natAbs

/-- A number: integers in decimal, doubles by their shortest text. -/
def numberText : Number → List Char
  | .int n => intText n
  | .float bits => floatText bits

/-- The way a token is written. -/
def text : Token → List Char
  | beginObject => ['\x7b']
  | endObject => ['\x7d']
  | beginArray => ['[']
  | endArray => [']']
  | colon => [':']
  | comma => [',']
  | null => ['n', 'u', 'l', 'l']
  | bool true => ['t', 'r', 'u', 'e']
  | bool false => ['f', 'a', 'l', 's', 'e']
  | number n => (n.map numberText).getD []
  | string s => (s.map fun s => quoted s.toList).getD []

/-! ## Reading strings -/

/-- A piece of a quoted text: a character, or a UTF-16 code unit written as an escape. -/
inductive Piece where
  | char (c : Char)
  | unit (n : Nat)

/-- The value of a hexadecimal digit. -/
def hexValue? (c : Char) : Option Nat :=
  if '0' ≤ c ∧ c ≤ '9' then some (c.toNat - 48)
  else if 'a' ≤ c ∧ c ≤ 'f' then some (c.toNat - 87)
  else if 'A' ≤ c ∧ c ≤ 'F' then some (c.toNat - 55)
  else none

/-- The value of four hexadecimal digits. -/
def hexUnit? (a b c d : Char) : Option Nat := do
  let a ← hexValue? a
  let b ← hexValue? b
  let c ← hexValue? c
  let d ← hexValue? d
  return ((a * 16 + b) * 16 + c) * 16 + d

/-- The character that a short escape stands for. -/
def shortEscape? (c : Char) : Option Char :=
  if c = '"' ∨ c = '\\' ∨ c = '/' then some c
  else if c = 'b' then some '\x08'
  else if c = 'f' then some '\x0c'
  else if c = 'n' then some '\n'
  else if c = 'r' then some '\r'
  else if c = 't' then some '\t'
  else none

/-- The pieces up to the closing quote, last first, in front of `done`; and the rest. -/
def pieces? (done : List Piece) : List Char → Option (List Piece × List Char)
  | [] => none
  | '"' :: rest => some (done, rest)
  | '\\' :: 'u' :: a :: b :: c :: d :: rest =>
      match hexUnit? a b c d with
      | some n => pieces? (.unit n :: done) rest
      | none => none
  | '\\' :: e :: rest =>
      match shortEscape? e with
      | some c => pieces? (.char c :: done) rest
      | none => none
  | c :: rest => if c = '\\' ∨ c.toNat < 0x20 then none else pieces? (.char c :: done) rest

/-- The text of pieces given last first, in front of `tail`: a low code unit needs a high one before
it, and a high one a low one after it. -/
def joinPieces? (tail : List Char) : List Piece → Option (List Char)
  | [] => some tail
  | .char c :: rest => joinPieces? (c :: tail) rest
  | .unit low :: rest =>
      if 0xDC00 ≤ low ∧ low ≤ 0xDFFF then
        match rest with
        | .unit high :: rest =>
            if 0xD800 ≤ high ∧ high ≤ 0xDBFF then
              let c := Char.ofNat (0x10000 + (high - 0xD800) * 0x400 + (low - 0xDC00))
              joinPieces? (c :: tail) rest
            else none
        | _ => none
      else if 0xD800 ≤ low ∧ low ≤ 0xDBFF then none
      else joinPieces? (Char.ofNat low :: tail) rest

/-- A quoted text after its opening quote. -/
def string? (cs : List Char) : Option (Token × List Char) :=
  (pieces? [] cs).map fun (pieces, rest) =>
    (.string ((joinPieces? [] pieces).map String.ofList), rest)

/-! ## Reading numbers -/

/-- The whole part of a numeral: no zero in front of other digits. -/
def whole? (cs : List Char) : Option (List Nat × List Char) :=
  match Literal.digits cs with
  | ([], _) => none
  | (0 :: _ :: _, _) => none
  | (ds, rest) => some (ds, rest)

/-- The fraction of a numeral, if there is one. -/
def fraction? : List Char → Option (Option (List Nat) × List Char)
  | '.' :: cs =>
      match Literal.digits cs with
      | ([], _) => none
      | (ds, rest) => some (some ds, rest)
  | cs => some (none, cs)

/-- A numeral after its sign. -/
def numeral? (negative : Bool) (cs : List Char) : Option (Token × List Char) := do
  let (whole, cs) ← whole? cs
  let (fraction, cs) ← fraction? cs
  let (power, cs) ← Literal.power? cs
  return (.number (Literal.number? ⟨negative, whole, fraction, power⟩), cs)

/-! ## Reading texts -/

/-- The four characters that may stand between tokens. -/
def isSpace (c : Char) : Bool := c == ' ' || c == '\n' || c == '\t' || c == '\r'

/-- The first token of a text that starts with no space, and the rest. -/
def next? : List Char → Option (Token × List Char)
  | '\x7b' :: cs => some (beginObject, cs)
  | '\x7d' :: cs => some (endObject, cs)
  | '[' :: cs => some (beginArray, cs)
  | ']' :: cs => some (endArray, cs)
  | ':' :: cs => some (colon, cs)
  | ',' :: cs => some (comma, cs)
  | 'n' :: 'u' :: 'l' :: 'l' :: cs => some (null, cs)
  | 't' :: 'r' :: 'u' :: 'e' :: cs => some (bool true, cs)
  | 'f' :: 'a' :: 'l' :: 's' :: 'e' :: cs => some (bool false, cs)
  -- what starts otherwise can only be a string or a numeral
  | '"' :: cs => string? cs
  | '-' :: cs => numeral? true cs
  | cs => numeral? false cs

/-- The tokens of a text, last first, in front of `done`. -/
def scanOnto? : Nat → List Token → List Char → Option (List Token)
  | 0, _, _ => none
  | fuel + 1, done, cs =>
      match cs.dropWhile isSpace with
      | [] => some done
      | c :: cs =>
          match next? (c :: cs) with
          | some (t, rest) => scanOnto? fuel (t :: done) rest
          | none => none

/-- The tokens of a text. Each takes a character at least, so the length of the text suffices as a
bound on their number. -/
def scan? (cs : List Char) : Option (List Token) :=
  (scanOnto? (cs.length + 1) [] cs).map List.reverse

end Token

end OfflineChat
