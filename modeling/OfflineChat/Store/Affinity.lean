import OfflineChat.Decimal.Extended
import OfflineChat.Decimal.Literal
import OfflineChat.Store.Row

/-! # What columns make of cells

The kind of a column turns integers into texts, and texts that spell a number into that number. A
numeral without point and power stands for itself if it is an integer of 64 bits. Every other one
is read as a double, of whose digits only the leading ones count, and becomes an integer again if
the double is whole. Main definitions: `Affinity`, `Affinity.literal?` (how a text spells a number),
`Affinity.numberCell` and `Affinity.convert`. -/

set_option autoImplicit false

namespace OfflineChat

/-- A column prefers texts or integers. -/
inductive Affinity where
  | text
  | integer
  deriving DecidableEq

namespace Affinity

/-! ## Texts that spell numbers -/

/-- Blank characters around the text of a number. -/
def isSpace (c : Char) : Bool :=
  c == ' ' || c == '\t' || c == '\n' || c == '\x0b' || c == '\x0c' || c == '\r'

/-- The digits after the point, if there is one; there may be none. -/
def fraction : List Char → Option (List Nat) × List Char
  | '.' :: cs => (some (Literal.digits cs).1, (Literal.digits cs).2)
  | cs => (none, cs)

/-- The number that a whole text spells: blanks may stand around it, and at least one digit stands
before its power. -/
def literal? (s : String) : Option Literal := do
  let (negative, cs) := Literal.sign (s.toList.dropWhile isSpace)
  let (whole, cs) := Literal.digits cs
  let (fraction, cs) := fraction cs
  let (power, cs) ← Literal.power? cs
  if (whole ++ fraction.getD []).isEmpty || !cs.all isSpace then none
  else some { negative, whole, fraction, power }

/-! ## The numbers they spell -/

/-- A significand takes in digits as long as it is below this number, so that it fits 64 bits. -/
def significandBound : Nat := 1_844_674_407_370_955_160

/-- Takes digits into a significand; gives it and the digits left over. -/
def gather (significand : Nat) : List Nat → Nat × List Nat
  | [] => (significand, [])
  | d :: ds =>
      if significand < significandBound then gather (significand * 10 + d) ds
      else (significand, d :: ds)

/-- The value of the digits of a power of ten, which is not followed far beyond the doubles. -/
def powerValue (ds : List Nat) : Nat :=
  ds.foldl (fun n d => if n < 10_000 then n * 10 + d else 10_000) 0

/-- The power of ten that a numeral is written with. -/
def writtenPower (l : Literal) : Int :=
  match l.power with
  | none => 0
  | some (true, ds) => -powerValue ds
  | some (false, ds) => powerValue ds

/-- The leading digits of a numeral, with the power of ten that belongs to them. -/
def leading (l : Literal) : Decimal :=
  let (whole, dropped) := gather 0 l.whole
  let fraction := l.fraction.getD []
  let (significand, rest) := gather whole fraction
  -- a digit dropped before the point raises the power, one taken in after it lowers the power
  ⟨significand, writtenPower l + dropped.length - (fraction.length - rest.length : Nat)⟩

/-- The bits of the double that a numeral stands for, sign aside. -/
def magnitudeBits (l : Literal) : UInt64 := (Extended.ofDecimal (leading l)).bits

/-- An integer of 64 bits, of this sign. -/
def integerCell? (negative : Bool) (n : Nat) : Option Cell :=
  let n : Int := if negative then -n else n
  if -0x8000_0000_0000_0000 ≤ n ∧ n < 0x8000_0000_0000_0000 then some (.integer n) else none

/-- A double as a cell: an integer if it is whole and less than `2 ^ 63` either way. -/
def doubleCell (negative : Bool) (magnitude : UInt64) : Cell :=
  match (wholeOfBits? magnitude).filter (· < 0x8000_0000_0000_0000) with
  | some n => .integer (if negative then -n else n)
  | none => .real (if negative then magnitude ||| 0x8000_0000_0000_0000 else magnitude)

/-- The number that a numeral stands for. -/
def numberCell (l : Literal) : Cell :=
  ((if l.isWhole then integerCell? l.negative (Literal.value l.whole) else none).getD
    (doubleCell l.negative (magnitudeBits l)))

/-! ## Cells -/

/-- What a column holds after a cell is put into it. -/
def convert : Affinity → Cell → Cell
  | text, .integer n => .text (toString n)
  | integer, .text s => ((literal? s).map numberCell).getD (.text s)
  | _, c => c

end Affinity

end OfflineChat
