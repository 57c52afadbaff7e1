import OfflineChat.Decimal.Nearest

/-! # Extended precision

A number with a power of ten becomes a double by way of numbers with 64 significant bits. What the
significand can take in of the power is taken in exactly; the rest is multiplied in by hundreds,
tens and ones of it, and each product is rounded. Main definitions: `Extended`, `Extended.ofDecimal`
and `Extended.bits`, the double in the end. -/

set_option autoImplicit false

namespace OfflineChat

/-- The number `mantissa * 2 ^ exponent`, for a mantissa up to `2 ^ 64`. -/
structure Extended where
  mantissa : Nat
  exponent : Int

namespace Extended

/-- The nearest number of 64 significant bits to `mantissa * 2 ^ exponent`; of two that are equally
near, the one with the even mantissa. -/
def rounded (mantissa : Nat) (exponent : Int) : Extended :=
  let surplus := mantissa.log2 - 63
  ⟨roundToEven mantissa (Nat.pow 2 surplus), exponent + surplus⟩

/-- The rounded product. -/
def mul (x y : Extended) : Extended := rounded (x.mantissa * y.mantissa) (x.exponent + y.exponent)

/-- `10 ^ n`. -/
def powerOfTen (n : Nat) : Extended := rounded (Nat.pow 10 n) 0

/-- `10 ^ (-n)`. -/
def inversePowerOfTen (n : Nat) : Extended :=
  let divisor := Nat.pow 10 n
  -- so many places that the quotient lies between `2 ^ 63` and `2 ^ 64`
  let places := divisor.log2 + 64
  ⟨roundToEven (Nat.pow 2 places) divisor, -places⟩

/-- Multiplies by a power of ten: first by its hundreds, then by its tens, then by its ones. -/
def scale (power : Nat → Extended) (x : Extended) (n : Nat) : Extended :=
  let x := Nat.repeat (mul · (power 100)) (n / 100) x
  let x := Nat.repeat (mul · (power 10)) (n % 100 / 10) x
  Nat.repeat (mul · (power 1)) (n % 10) x

/-- A significand below this number stays within 64 bits with one digit more. -/
def roomForDigit : Nat := 1_844_674_407_370_955_161

/-- Takes a power of ten into a significand as long as there is room; gives what is left of it. -/
def takeIn (significand : Nat) : Nat → Nat × Nat
  | 0 => (significand, 0)
  | n + 1 =>
      if significand < roomForDigit then takeIn (significand * 10) n else (significand, n + 1)

/-- Cancels a divisor `10 ^ n` as long as the significand ends in 0; gives what is left of it. -/
def cancel (significand : Nat) : Nat → Nat × Nat
  | 0 => (significand, 0)
  | n + 1 => if significand % 10 = 0 then cancel (significand / 10) n else (significand, n + 1)

/-- A significand of 64 bits with its power of ten. -/
def ofDecimal (d : Decimal) : Extended :=
  let (significand, up) := takeIn d.digits d.exponent.toNat
  let (significand, down) := cancel significand (-d.exponent).toNat
  scale inversePowerOfTen (scale powerOfTen ⟨significand, 0⟩ up) down

/-- The bits of the nearest double. -/
def bits (x : Extended) : UInt64 :=
  nearestBits (x.mantissa * Nat.pow 2 x.exponent.toNat) (Nat.pow 2 (-x.exponent).toNat)

end Extended

end OfflineChat
