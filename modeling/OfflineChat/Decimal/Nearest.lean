import OfflineChat.Decimal.Shortest

/-! # The nearest double

The number of double precision that is nearest to a quotient of natural numbers; of two that are
equally near, the one with the even mantissa. All arithmetic is exact. Main definitions:
`nearestBits`, and `wholeOfBits?`, the natural number that a double is. -/

set_option autoImplicit false

namespace OfflineChat

/-- The natural number nearest to a quotient; a half goes to the even neighbour. -/
def roundToEven (numerator denominator : Nat) : Nat :=
  let below := numerator / denominator
  let rest := 2 * (numerator % denominator)
  if rest < denominator ∨ (rest = denominator ∧ below % 2 = 0) then below else below + 1

/-- The exponent of the greatest power of two that is not above a positive quotient. -/
def floorLog2 (numerator denominator : Nat) : Int :=
  let guess : Int := (numerator.log2 : Int) - denominator.log2
  if numerator * Nat.pow 2 (-guess).toNat < denominator * Nat.pow 2 guess.toNat then guess - 1
  else guess

/-- The bits of infinity. -/
def infinityBits : Nat := 0x7FF0_0000_0000_0000

/-- The bits of the double nearest to a quotient; a quotient beyond the doubles is infinite. -/
def nearestBits (numerator denominator : Nat) : UInt64 :=
  let exponent := max (floorLog2 numerator denominator - 52) (-1074)
  let mantissa := roundToEven (numerator * Nat.pow 2 (-exponent).toNat)
    (denominator * Nat.pow 2 exponent.toNat)
  -- the leading bit of the mantissa adds one to the exponent field, and so does a carry
  let bits := (exponent + 1074).toNat * 0x10_0000_0000_0000 + mantissa
  if numerator = 0 then 0 else .ofNat (min bits infinityBits)

/-- The natural number that a magnitude is, if it is one. -/
def Binary64.whole? (x : Binary64) : Option Nat :=
  let scale := Nat.pow 2 (-x.exponent).toNat
  if x.mantissa % scale = 0 then some (x.mantissa / scale * Nat.pow 2 x.exponent.toNat) else none

/-- The natural number that the bits of a double stand for, sign aside, if it is one. -/
def wholeOfBits? (bits : UInt64) : Option Nat :=
  if isFiniteBits bits then (Binary64.ofBits bits).whole? else none

end OfflineChat
