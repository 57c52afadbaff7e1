/-! # Decimal literals

The parts of a written number, before it is decided which number they make. Main definitions:
`Literal`, and the readers of its parts, `Literal.digits`, `Literal.sign` and `Literal.power?`, each
of which gives the part and the rest of the text. -/

set_option autoImplicit false

namespace OfflineChat

/-- The parts of a numeral: sign, digits before and after the point, and the power of ten. The
numeral has a `fraction` or a `power` only if it is written with one. -/
structure Literal where
  negative : Bool
  whole : List Nat
  fraction : Option (List Nat)
  power : Option (Bool × List Nat)

namespace Literal

/-- The numeral is written without point and power. -/
def isWhole (l : Literal) : Bool := l.fraction.isNone && l.power.isNone

/-- The number that digits denote. -/
def value (ds : List Nat) : Nat := ds.foldl (fun n d => n * 10 + d) 0

/-- The values of the digits at the front, and the rest. -/
def digits (cs : List Char) : List Nat × List Char :=
  ((cs.takeWhile Char.isDigit).map fun c => c.toNat - 48, cs.dropWhile Char.isDigit)

/-- Whether a minus stands at the front, and what follows the sign, if there is one. -/
def sign : List Char → Bool × List Char
  | '-' :: cs => (true, cs)
  | '+' :: cs => (false, cs)
  | cs => (false, cs)

/-- The power of ten of a numeral, if there is one: a mark, an optional sign and at least one
digit. -/
def power? : List Char → Option (Option (Bool × List Nat) × List Char)
  | [] => some (none, [])
  | c :: cs =>
      if c = 'e' ∨ c = 'E' then
        let (negative, cs) := sign cs
        match digits cs with
        | ([], _) => none
        | (ds, rest) => some (some (negative, ds), rest)
      else some (none, c :: cs)

end Literal

end OfflineChat
