import Mathlib.Data.List.Induction
import OfflineChat.Proofs.Time.StoredOrder

/-! # What counts are spelt like

A count is written with ASCII digits, at least one, behind an optional plus, and zeros in front do
not matter. Main definitions: `Numeral.Denotes`, the number that a run of digits stands for, and
`Numeral.Spells`, a whole text of a count. Main statement: a text is read as a count if and only if
it spells one that a word of 64 bits holds (`Numeral.count?_eq_some_iff`). -/

set_option autoImplicit false

namespace OfflineChat.Numeral

/-- A run of ASCII digits, at least one, and the number that it denotes. -/
inductive Denotes : List Char → Nat → Prop
  | digit (d : Fin 10) : Denotes [Nat.digitChar d] d
  | snoc {ds : List Char} {n : Nat} (h : Denotes ds n) (d : Fin 10) :
      Denotes (ds ++ [Nat.digitChar d]) (10 * n + d)

/-- A text that spells a number: a run of digits behind an optional plus. -/
def Spells (s : String) (n : Nat) : Prop :=
  ∃ ds, Denotes ds n ∧ (s.toList = ds ∨ s.toList = '+' :: ds)

/-! ## Digits -/

theorem isDigit_digitChar (d : Fin 10) : (Nat.digitChar d).isDigit = true := by
  revert d
  decide

/-- A digit is that of a number below ten. -/
theorem exists_digitChar {c : Char} (h : c.isDigit = true) : ∃ d : Fin 10, Nat.digitChar d = c := by
  have hrange := isDigit_iff.1 h
  refine ⟨⟨c.toNat - 48, by omega⟩, Char.toNat_inj.1 ?_⟩
  have hbelow : c.toNat - 48 < 10 := by omega
  rw [Nat.toNat_digitChar_of_lt_ten hbelow]
  omega

theorem value_snoc (ds : List Char) (d : Fin 10) :
    value (ds ++ [Nat.digitChar d]) = 10 * value ds + d := by
  have hdigit : (Nat.digitChar d).toNat = 48 + d := Nat.toNat_digitChar_of_lt_ten d.isLt
  have hsnoc : value (ds ++ [Nat.digitChar d])
      = 10 * value ds + ((Nat.digitChar d).toNat - '0'.toNat) := by
    simp only [value, Nat.ofDigitChars_append, Nat.ofDigitChars_cons, Nat.ofDigitChars_nil]
  rw [hsnoc, hdigit]
  show 10 * value ds + (48 + (d : Nat) - 48) = 10 * value ds + d
  omega

/-! ## Runs of digits -/

namespace Denotes

variable {ds : List Char} {m n : Nat}

theorem ne_nil (h : Denotes ds n) : ds ≠ [] := by
  cases h with
  | digit d => exact List.cons_ne_nil _ _
  | snoc h d => exact List.append_ne_nil_of_right_ne_nil _ (List.cons_ne_nil _ _)

theorem isDigit_of_mem (h : Denotes ds n) : ∀ c ∈ ds, c.isDigit = true := by
  induction h with
  | digit d => exact List.forall_mem_singleton.2 (isDigit_digitChar d)
  | snoc h d ih =>
      intro c hc
      rcases List.mem_append.1 hc with hc | hc
      · exact ih c hc
      · rw [List.mem_singleton.1 hc]
        exact isDigit_digitChar d

theorem value_eq (h : Denotes ds n) : value ds = n := by
  induction h with
  | digit d => exact (value_snoc [] d).trans (Nat.zero_add _)
  | snoc h d ih => rw [value_snoc, ih]

/-- A run of digits denotes one number only. -/
theorem unique (h : Denotes ds m) (h' : Denotes ds n) : m = n := h.value_eq.symm.trans h'.value_eq

end Denotes

/-- Every run of digits denotes a number, which is its value. -/
theorem denotes_value {ds : List Char} (hne : ds ≠ []) (hdigits : ∀ c ∈ ds, c.isDigit = true) :
    Denotes ds (value ds) := by
  induction ds using List.reverseRecOn with
  | nil => exact absurd rfl hne
  | append_singleton ds c ih =>
      obtain ⟨d, rfl⟩ := exists_digitChar (hdigits c (List.mem_append_right _ List.mem_cons_self))
      rw [value_snoc]
      by_cases hnil : ds = []
      · -- the first digit of all
        subst hnil
        have hvalue : 10 * value [] + (d : Nat) = d := Nat.zero_add _
        rw [hvalue]
        exact .digit d
      · exact (ih hnil fun c hc => hdigits c (List.mem_append_left _ hc)).snoc d

/-! ## Counts -/

/-- No digit is taken for a sign. -/
theorem unsigned_of_isDigit {ds : List Char} (h : ∀ c ∈ ds, c.isDigit = true) :
    unsigned ds = ds := by
  unfold unsigned
  split
  · next rest =>
    have hplus := h '+' List.mem_cons_self
    exact absurd hplus (by decide)
  · rfl

theorem unsigned_spelt {cs ds : List Char} {n : Nat} (h : Denotes ds n)
    (hcs : cs = ds ∨ cs = '+' :: ds) : unsigned cs = ds := by
  rcases hcs with rfl | rfl
  · exact unsigned_of_isDigit h.isDigit_of_mem
  · rfl

theorem eq_or_eq_cons_unsigned (cs : List Char) : cs = unsigned cs ∨ cs = '+' :: unsigned cs := by
  unfold unsigned
  split
  · exact .inr rfl
  · exact .inl rfl

/-- A text spells one number only. -/
theorem Spells.unique {s : String} {m n : Nat} (h : Spells s m) (h' : Spells s n) : m = n := by
  obtain ⟨ds, hds, hs⟩ := h
  obtain ⟨es, hes, hs'⟩ := h'
  have hsame : ds = es := (unsigned_spelt hds hs).symm.trans (unsigned_spelt hes hs')
  subst hsame
  exact hds.unique hes

/-- **A text is read as a count if and only if it spells one** that a word of 64 bits holds. -/
theorem count?_eq_some_iff {s : String} {n : Nat} :
    count? s = some n ↔ Spells s n ∧ n < 0x1_0000_0000_0000_0000 := by
  unfold count?
  constructor
  · intro h
    dsimp only at h
    split at h
    · next hcount =>
      obtain ⟨hne, hall, hlt⟩ := hcount
      rw [← Option.some.inj h]
      have hdenotes := denotes_value hne (List.all_eq_true.1 hall)
      exact ⟨⟨_, hdenotes, eq_or_eq_cons_unsigned s.toList⟩, hlt⟩
    · exact nomatch h
  · rintro ⟨⟨ds, hds, hs⟩, hlt⟩
    have hall : ds.all Char.isDigit = true := List.all_eq_true.2 hds.isDigit_of_mem
    have hvalue := hds.value_eq
    simp only [unsigned_spelt hds hs]
    rw [if_pos ⟨hds.ne_nil, hall, hvalue ▸ hlt⟩, hvalue]

end OfflineChat.Numeral
