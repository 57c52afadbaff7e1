import OfflineChat.Text.Blank
import OfflineChat.Time.Stored

/-! # Loosely written timestamps

The text of an instant in a document. It is written with as few fraction digits as lose nothing, in
threes (`Instant.documentText`), and read generously (`Instant.ofLoose?`): signed years, one-digit
fields, blanks between the parts, offsets without a colon, and `UTC`. An offset is required. -/

set_option autoImplicit false

namespace OfflineChat.Instant

/-! ## Writing -/

/-- The fraction of a second with 0, 3, 6 or 9 digits. -/
def shortFraction (nano : Nat) : List Char :=
  if nano = 0 then []
  else if nano % 1_000_000 = 0 then '.' :: Numeral.padded 3 (nano / 1_000_000)
  else if nano % 1_000 = 0 then '.' :: Numeral.padded 6 (nano / 1_000)
  else '.' :: Numeral.padded 9 nano

/-- The text of an instant in a document. -/
def documentText (t : Instant) : List Char := t.textWith (shortFraction t.nano)

/-! ## Reading -/

/-- A year: digits after a sign without limit, else at most four. -/
def looseYear? (cs : List Char) : Option (Int × List Char) :=
  match Text.trimStart cs with
  | '-' :: cs => (Numeral.run? cs).map fun (n, cs) => (-(n : Int), cs)
  | '+' :: cs => (Numeral.run? cs).map fun (n, cs) => ((n : Int), cs)
  | cs => (Numeral.upTo? 4 cs).map fun (n, cs) => ((n : Int), cs)

/-- A field of one or two digits, after blanks. -/
def looseField? (cs : List Char) : Option (Nat × List Char) :=
  Numeral.upTo? 2 (Text.trimStart cs)

/-- A separator, after blanks. -/
def looseMark? (c : Char) (cs : List Char) : Option (List Char) :=
  Text.after? c (Text.trimStart cs)

/-- Any run of colons and blanks. -/
def skipColons (cs : List Char) : List Char :=
  cs.dropWhile fun c => c == ':' || Text.isBlank c

/-- The letters `UTC` in either case, and what follows them. -/
def utcMark? : List Char → Option (List Char)
  | u :: t :: c :: cs =>
      if u.toUpper = 'U' ∧ t.toUpper = 'T' ∧ c.toUpper = 'C' then some cs else none
  | _ => none

/-- Minutes ahead of universal time, and the rest. -/
def looseOffset? (cs : List Char) : Option (Int × List Char) :=
  match utcMark? cs with
  | some rest => some (0, rest)
  | none =>
      match cs with
      | 'Z' :: rest => some (0, rest)
      | 'z' :: rest => some (0, rest)
      | cs => do
          let (sign, cs) ← offsetSign? cs
          let (hours, cs) ← Numeral.take? 2 cs
          let (minutes, cs) ← Numeral.take? 2 (skipColons cs)
          if hours < 24 ∧ minutes < 60 then some (sign * (hours * 60 + minutes), cs) else none

/-- Reads a timestamp of a document. -/
def ofLoose? (cs : List Char) : Option Instant := do
  let (year, cs) ← looseYear? cs
  let cs ← looseMark? '-' cs
  let (month, cs) ← looseField? cs
  let cs ← looseMark? '-' cs
  let (day, cs) ← looseField? cs
  let date ← Date.ofFields? year month day
  let cs ← (Text.after? 'T' cs).or ((Text.after? 't' cs).or (Text.after? ' ' cs))
  let (hour, cs) ← looseField? cs
  let cs ← looseMark? ':' cs
  let (minute, cs) ← looseField? cs
  let cs ← looseMark? ':' cs
  let (second, cs) ← looseField? cs
  let (nano, cs) ← fraction? cs
  let (offset, cs) ← looseOffset? (Text.trimStart cs)
  if Text.trimStart cs ≠ [] then none
  else do
    let reading ← ofFields? date hour minute second nano
    reading.earlier? offset

end OfflineChat.Instant
