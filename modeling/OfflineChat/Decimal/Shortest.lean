/-! # Shortest decimal text of a binary number

The fewest decimal digits that read back as a given number of double precision, nearest to its
value among those of that length. All arithmetic is exact, on natural numbers. Main definitions:
`Binary64` (a positive finite number as `mantissa * 2 ^ exponent`), `Binary64.shortest`, and the
layout of the digits in `Decimal.text`. -/

set_option autoImplicit false

namespace OfflineChat

/-- The bits of a double are those of a finite number. -/
def isFiniteBits (bits : UInt64) : Bool := (bits >>> 52) &&& 0x7FF != 0x7FF

/-- A positive number `mantissa * 2 ^ exponent` of double precision. `narrowBelow` says that the
numbers below it are half as far apart as those above. -/
structure Binary64 where
  mantissa : Nat
  exponent : Int
  narrowBelow : Bool

/-- A number `digits * 10 ^ exponent`. -/
structure Decimal where
  digits : Nat
  exponent : Int
  deriving DecidableEq

namespace Binary64

/-- The magnitude that the bits of a finite double stand for. -/
def ofBits (bits : UInt64) : Binary64 :=
  let fraction := (bits &&& 0xFFFFFFFFFFFFF).toNat
  let field := ((bits >>> 52) &&& 0x7FF).toNat
  if field = 0 then ⟨fraction, -1074, false⟩
  else ⟨fraction + 0x10_0000_0000_0000, (field : Int) - 1075, fraction == 0 && 1 < field⟩

/-- Numerator, over `scale`, of the number; the interval that rounds to it reaches from `low` to
`high`, over the same scale. -/
structure Interval where
  low : Nat
  middle : Nat
  high : Nat
  scale : Nat
  closed : Bool

/-- The numbers that round to `x`: half way to its neighbours, ends included if the mantissa is
even. -/
def interval (x : Binary64) : Interval :=
  let up := Nat.pow 2 (x.exponent - 2).toNat
  let m := 4 * x.mantissa
  { low := (m - if x.narrowBelow then 1 else 2) * up
    middle := m * up
    high := (m + 2) * up
    scale := Nat.pow 2 (2 - x.exponent).toNat
    closed := x.mantissa % 2 == 0 }

namespace Interval

/-- The grid point `digits * 10 ^ exponent` lies in the interval. -/
def contains (i : Interval) (d : Decimal) : Bool :=
  let point := d.digits * Nat.pow 10 d.exponent.toNat * i.scale
  let unit := Nat.pow 10 (-d.exponent).toNat
  if i.closed then i.low * unit ≤ point && point ≤ i.high * unit
  else i.low * unit < point && point < i.high * unit

/-- The middle lies nearer to the next grid point than to `digits`; a tie goes to the even one. -/
def roundsUp (i : Interval) (d : Decimal) : Bool :=
  let point := (2 * d.digits + 1) * Nat.pow 10 d.exponent.toNat * i.scale
  let twice := 2 * i.middle * Nat.pow 10 (-d.exponent).toNat
  point < twice || (point == twice && d.digits % 2 == 1)

/-- The grid point of this exponent that is the middle or lies next below it. -/
def floor (i : Interval) (exponent : Int) : Decimal :=
  ⟨i.middle * Nat.pow 10 (-exponent).toNat / (i.scale * Nat.pow 10 exponent.toNat), exponent⟩

/-- The grid point of this exponent in the interval that is nearest to the middle. -/
def onGrid? (i : Interval) (exponent : Int) : Option Decimal :=
  let below := i.floor exponent
  let above : Decimal := ⟨below.digits + 1, exponent⟩
  match i.contains below, i.contains above with
  | true, true => if i.roundsUp below then some above else some below
  | true, false => some below
  | false, true => some above
  | false, false => none

/-- The coarsest grid with a point in the interval, searched downwards from `exponent`. -/
def coarsest (i : Interval) : Nat → Int → Decimal
  | 0, exponent => i.floor exponent
  | fuel + 1, exponent =>
      match i.onGrid? exponent with
      | some d => d
      | none => coarsest i fuel (exponent - 1)

end Interval

/-- An exponent of ten above the number's own. -/
def exponentAbove (x : Binary64) : Int :=
  (x.exponent + Nat.log2 x.mantissa + 1) * 30103 / 100000 + 1

/-- The fewest digits that read back as `x`. -/
def shortest (x : Binary64) : Decimal := x.interval.coarsest 24 x.exponentAbove

end Binary64

namespace Decimal

/-- The digits with a point; positional if the leading digit stands for `10 ^ -5` to `10 ^ 15`,
else with an exponent that carries its sign. -/
def text (d : Decimal) : List Char :=
  let digits := Nat.toDigits 10 d.digits
  let point : Int := digits.length + d.exponent
  if 0 ≤ d.exponent ∧ point ≤ 16 then
    digits ++ (List.replicate d.exponent.toNat '0' ++ ['.', '0'])
  else if 0 < point ∧ point ≤ 16 then
    digits.take point.toNat ++ '.' :: digits.drop point.toNat
  else if -5 < point ∧ point ≤ 0 then
    '0' :: '.' :: (List.replicate (-point).toNat '0' ++ digits)
  else
    let power := point - 1
    let mark := 'e' :: (if power < 0 then '-' else '+') :: Nat.toDigits 10 power.natAbs
    match digits with
    | [d] => d :: mark
    | ds => ds.take 1 ++ '.' :: (ds.drop 1 ++ mark)

end Decimal

/-- The shortest text of the number with these bits, with at least one fraction digit or an
exponent. -/
def floatText (bits : UInt64) : List Char :=
  let sign := if bits >>> 63 = 1 then ['-'] else []
  if bits <<< 1 = 0 then sign ++ ['0', '.', '0']
  else sign ++ (Binary64.ofBits bits).shortest.text

end OfflineChat
