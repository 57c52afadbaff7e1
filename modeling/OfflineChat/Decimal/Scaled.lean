import OfflineChat.Decimal.Literal
import OfflineChat.Decimal.Shortest

/-! # Numbers read by scaling

How a decimal literal becomes a number: its leading digits are taken as a 64-bit integer, which is
turned into a double and scaled by a power of ten, rounding at each of these steps. Main
definitions: `Literal.number?` and `Number.Fits`, which a magnitude beyond the doubles does not. -/

set_option autoImplicit false

namespace OfflineChat

/-- A number is an integer that fits 64 bits, signed or not, or the bits of a finite double. -/
inductive Number where
  | int (n : Int)
  | float (bits : UInt64)
  deriving DecidableEq

/-- An integer fits 64 bits, signed or unsigned; a double is finite. -/
def Number.Fits : Number → Prop
  | .int n => -0x8000_0000_0000_0000 ≤ n ∧ n < 0x1_0000_0000_0000_0000
  | .float bits => isFiniteBits bits = true

instance (n : Number) : Decidable n.Fits :=
  match n with
  | .int _ => inferInstanceAs (Decidable (_ ∧ _))
  | .float _ => inferInstanceAs (Decidable (_ = _))

namespace Literal

/-- The largest significand. -/
def maxSignificand : Nat := 0xFFFF_FFFF_FFFF_FFFF

/-- Appends digits to a significand while it fits; gives it and the digits left over. -/
def absorb (significand : Nat) : List Nat → Nat × List Nat
  | [] => (significand, [])
  | d :: ds =>
      if significand * 10 + d ≤ maxSignificand then absorb (significand * 10 + d) ds
      else (significand, d :: ds)

/-- `10 ^ n` as a double, for `n` up to 308. -/
def powerOfTen (n : Nat) : Float := Float.ofScientific 1 false n

/-- Divides by a power of ten, in steps of at most `10 ^ 308`. -/
def scaleDown (x : Float) (n : Nat) : Float :=
  if n ≤ 308 then x / powerOfTen n
  else if x == 0 then x
  else scaleDown (x / powerOfTen 308) (n - 308)
termination_by n

/-- The double `significand * 10 ^ exponent`; an infinite one, or `none`, if it is too large. -/
def scaled? (significand : Nat) (exponent : Int) : Option Float :=
  let x := (UInt64.ofNat significand).toFloat
  if exponent < 0 then some (scaleDown x exponent.natAbs)
  else if exponent ≤ 308 then some (x * powerOfTen exponent.toNat)
  else if x == 0 then some x
  else none

/-- The largest power of ten that is told from an overflow. -/
def maxPower : Nat := 0x7FFF_FFFF

/-- A number whose power of ten is written out: one beyond 32 bits is too large for every
significand but zero, or makes the number vanish. -/
def powered? (significand : Nat) (exponent : Int) : Option (Bool × List Nat) → Option Float
  | none => scaled? significand exponent
  | some (negative, digits) =>
      let power := value digits
      if maxPower < power then
        if significand ≠ 0 ∧ negative = false then none else some 0
      else scaled? significand (if negative then exponent - power else exponent + power)

/-- The bits of the double that a literal stands for, which may be infinite. -/
def float? (l : Literal) : Option UInt64 :=
  let (whole, dropped) := absorb 0 l.whole
  let fraction := l.fraction.getD []
  let (significand, rest) := absorb whole fraction
  -- a digit dropped before the point raises the power, one taken in after it lowers the power
  let exponent : Int := (dropped.length : Int) - (fraction.length - rest.length : Nat)
  (powered? significand exponent l.power).map fun x => (if l.negative then -x else x).toBits

/-- The number that a literal stands for. Without point and power it is an integer if it fits;
minus zero does not. -/
def number? (l : Literal) : Option Number :=
  let (whole, dropped) := absorb 0 l.whole
  if l.isWhole ∧ dropped = [] then
    if l.negative = false then some (.int whole)
    else if 0 < whole ∧ whole ≤ 0x8000_0000_0000_0000 then some (.int (-(whole : Int)))
    else l.float?.map .float
  else l.float?.map .float

end Literal

end OfflineChat
