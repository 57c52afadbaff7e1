import OfflineChat.Text.Numeral
import OfflineChat.Time.Instant

/-! # Stored timestamps

The text of an instant in a table: universal time with nine fraction digits, so that texts of years
with four digits have one width and sort as the instants do. Main definitions:
`Instant.storedText` and its reader `Instant.ofStored?`, which also takes other offsets, other
fraction lengths and a lower-case `t` or `z`, and nothing before or after. -/

set_option autoImplicit false

namespace OfflineChat

/-- The rest of a text that starts with the character `c`. -/
def Text.after? (c : Char) : List Char → Option (List Char)
  | [] => none
  | d :: cs => if d = c then some cs else none

@[simp] theorem Text.after?_cons_self (c : Char) (cs : List Char) :
    Text.after? c (c :: cs) = some cs := by
  simp [Text.after?]

namespace Instant

/-! ## Writing -/

/-- Four digits, and a sign in front of years outside 0 to 9999. -/
def yearText (year : Int) : List Char :=
  if 0 ≤ year ∧ year ≤ 9999 then Numeral.padded 4 year.toNat
  else (if year < 0 then '-' else '+') :: Numeral.padded 4 year.natAbs

/-- Date and time of day, the given fraction, and the mark of universal time. -/
def textWith (fraction : List Char) (t : Instant) : List Char :=
  yearText t.date.year ++ '-' :: (Numeral.padded 2 t.date.month ++ '-' ::
    (Numeral.padded 2 t.date.day ++ 'T' :: (Numeral.padded 2 t.hour ++ ':' ::
      (Numeral.padded 2 t.minute ++ ':' :: (Numeral.padded 2 t.second ++ (fraction ++ ['Z']))))))

/-- The text of an instant in a table: always nine fraction digits. -/
def storedText (t : Instant) : List Char := t.textWith ('.' :: Numeral.padded 9 t.nano)

/-! ## Reading -/

/-- A decimal fraction of a second in nanoseconds; digits after the ninth are dropped. -/
def nanosOf (digits : List Char) : Nat := Numeral.value ((digits.take 9).rightpad 9 '0')

/-- An optional fraction: a point and at least one digit. -/
def fraction? : List Char → Option (Nat × List Char)
  | '.' :: cs =>
      let digits := cs.takeWhile Char.isDigit
      if digits.isEmpty then none else some (nanosOf digits, cs.dropWhile Char.isDigit)
  | cs => some (0, cs)

/-- A clock may run ahead of universal time or behind it; the minus sign U+2212 counts as a hyphen.
-/
def offsetSign? : List Char → Option (Int × List Char)
  | '+' :: cs => some (1, cs)
  | '-' :: cs => some (-1, cs)
  | '\u2212' :: cs => some (-1, cs)
  | _ => none

/-- Minutes ahead of universal time, at the end of a stored text. -/
def storedOffset? : List Char → Option Int
  | ['Z'] => some 0
  | ['z'] => some 0
  | cs => do
      let (sign, cs) ← offsetSign? cs
      let (hours, cs) ← Numeral.take? 2 cs
      let cs ← Text.after? ':' cs
      let (minutes, cs) ← Numeral.take? 2 cs
      if hours < 24 ∧ minutes < 60 ∧ cs = [] then some (sign * (hours * 60 + minutes)) else none

/-- Reads a stored timestamp. -/
def ofStored? (cs : List Char) : Option Instant := do
  let (year, cs) ← Numeral.take? 4 cs
  let cs ← Text.after? '-' cs
  let (month, cs) ← Numeral.take? 2 cs
  let cs ← Text.after? '-' cs
  let (day, cs) ← Numeral.take? 2 cs
  let date ← Date.ofFields? year month day
  let cs ← (Text.after? 'T' cs).or ((Text.after? 't' cs).or (Text.after? ' ' cs))
  let (hour, cs) ← Numeral.take? 2 cs
  let cs ← Text.after? ':' cs
  let (minute, cs) ← Numeral.take? 2 cs
  let cs ← Text.after? ':' cs
  let (second, cs) ← Numeral.take? 2 cs
  let (nano, cs) ← fraction? cs
  let offset ← storedOffset? cs
  let reading ← ofFields? date hour minute second nano
  reading.earlier? offset

end Instant

end OfflineChat
