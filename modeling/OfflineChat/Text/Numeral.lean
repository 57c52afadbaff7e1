/-! # Decimal numerals

Runs of ASCII digits: how they are read, written and padded. Main definitions: `Numeral.value`,
`Numeral.padded`, `Numeral.take?` (a fixed number of digits) and `Numeral.count?` (a positive count
as settings spell it). Main statements: padding keeps the value (`value_padded`), and a padded
numeral is read back in front of any text (`take?_padded`). -/

set_option autoImplicit false

namespace OfflineChat.Numeral

/-- The number that a run of digits denotes. -/
def value (ds : List Char) : Nat := Nat.ofDigitChars 10 ds 0

/-- The digits of `n`, with zeros in front up to `width` of them. -/
def padded (width n : Nat) : List Char := (Nat.toDigits 10 n).leftpad width '0'

theorem value_padded (width n : Nat) : value (padded width n) = n := by
  simp [value, padded, List.leftpad, Nat.ofDigitChars_append, Nat.ofDigitChars_replicate_zero,
    Nat.ofDigitChars_ten_toDigits]

theorem isDigit_of_mem_padded {width n : Nat} {c : Char} (h : c ∈ padded width n) :
    c.isDigit = true := by
  simp only [padded, List.leftpad, List.mem_append, List.mem_replicate] at h
  rcases h with ⟨_, rfl⟩ | h
  · decide
  · exact Nat.isDigit_of_mem_toDigits (by decide) (by decide) h

theorem length_padded {width n : Nat} (hw : 0 < width) (h : n < Nat.pow 10 width) :
    (padded width n).length = width := by
  have : (Nat.toDigits 10 n).length ≤ width := (Nat.length_toDigits_le_iff (by decide) hw).2 h
  simp only [padded, List.length_leftpad]
  omega

theorem padded_ne_nil (width n : Nat) : padded width n ≠ [] := by
  simp [padded, List.leftpad, Nat.toDigits_ne_nil]

/-- Reads exactly `width` digits and gives their value and the rest. -/
def take? (width : Nat) (cs : List Char) : Option (Nat × List Char) :=
  if (cs.take width).length = width ∧ (cs.take width).all Char.isDigit then
    some (value (cs.take width), cs.drop width)
  else none

theorem take?_append {width : Nat} {ds : List Char} (rest : List Char)
    (hl : ds.length = width) (hd : ∀ c ∈ ds, c.isDigit = true) :
    take? width (ds ++ rest) = some (value ds, rest) := by
  subst hl
  have hall : ds.all Char.isDigit = true := List.all_eq_true.2 hd
  simp [take?, hall]

theorem take?_padded {width n : Nat} (rest : List Char) (hw : 0 < width)
    (h : n < Nat.pow 10 width) :
    take? width (padded width n ++ rest) = some (n, rest) := by
  rw [take?_append rest (length_padded hw h) (fun c hc => isDigit_of_mem_padded hc), value_padded]

/-- Reads between one and `width` digits, as many as there are. -/
def upTo? (width : Nat) (cs : List Char) : Option (Nat × List Char) :=
  let ds := (cs.take width).takeWhile Char.isDigit
  if ds.isEmpty then none else some (value ds, cs.drop ds.length)

/-- Reads all digits at the front, at least one. -/
def run? (cs : List Char) : Option (Nat × List Char) :=
  let ds := cs.takeWhile Char.isDigit
  if ds.isEmpty then none else some (value ds, cs.dropWhile Char.isDigit)

/-- The digits of a numeral after its sign: one leading plus is allowed. -/
def unsigned : List Char → List Char
  | '+' :: ds => ds
  | ds => ds

/-- Reads a whole text as a count of 64 bits: an optional plus and at least one digit. -/
def count? (s : String) : Option Nat :=
  let ds := unsigned s.toList
  if ds ≠ [] ∧ ds.all Char.isDigit ∧ value ds < 0x1_0000_0000_0000_0000 then some (value ds)
  else none

end OfflineChat.Numeral
