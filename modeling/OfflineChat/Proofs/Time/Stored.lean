import OfflineChat.Time.Stored

/-! # Stored timestamps are read back

The text of an instant in a table is read back just if its year has four digits: the sign in front
of every other year is no digit. Main definition: `Instant.HasShortYear`. Main statement:
`Instant.ofStored?_storedText`. -/

set_option autoImplicit false

namespace OfflineChat.Instant

/-- The year lies between 0 and 9999, so that four digits without a sign spell it. -/
def HasShortYear (t : Instant) : Prop := 0 ≤ t.date.year ∧ t.date.year ≤ 9999

instance (t : Instant) : Decidable t.HasShortYear := inferInstanceAs (Decidable (_ ∧ _))

/-! ## Fields -/

theorem take?_two {n : Nat} (h : n < 100) (rest : List Char) :
    Numeral.take? 2 (Numeral.padded 2 n ++ rest) = some (n, rest) :=
  Numeral.take?_padded rest (by decide) h

/-- Four digits hold the year. -/
theorem toNat_year_lt {year : Int} (h : 0 ≤ year ∧ year ≤ 9999) : year.toNat < Nat.pow 10 4 := by
  show year.toNat < 10000
  omega

/-- A year with four digits is read back in front of any text. -/
theorem take?_yearText {year : Int} (h : 0 ≤ year ∧ year ≤ 9999) (rest : List Char) :
    Numeral.take? 4 (yearText year ++ rest) = some (year.toNat, rest) := by
  rw [yearText, if_pos h, Numeral.take?_padded rest (by decide) (toNat_year_lt h)]

/-- Every other year starts with a sign. -/
theorem take?_yearText_eq_none {year : Int} (h : ¬(0 ≤ year ∧ year ≤ 9999)) (rest : List Char) :
    Numeral.take? 4 (yearText year ++ rest) = none := by
  rw [yearText, if_neg h, Numeral.take?, if_neg]
  rintro ⟨-, hdigits⟩
  by_cases hn : year < 0
  · simp [hn] at hdigits
  · simp [hn] at hdigits

/-! ## The fraction -/

/-- Zeros behind a fraction raise its value to nanoseconds. -/
theorem nanosOf_eq {ds : List Char} (h : ds.length ≤ 9) :
    nanosOf ds = Numeral.value ds * Nat.pow 10 (9 - ds.length) := by
  have htake : ds.take 9 = ds := List.take_of_length_le h
  rw [nanosOf, htake, List.rightpad, Numeral.value, Nat.ofDigitChars_append,
    Nat.ofDigitChars_replicate_zero, Nat.mul_comm]
  rfl

/-- Up to nine digits behind a point are read as a fraction of a second. -/
theorem fraction?_digits {ds : List Char} (hne : ds ≠ []) (hd : ∀ c ∈ ds, c.isDigit = true)
    (hl : ds.length ≤ 9) :
    fraction? ('.' :: (ds ++ ['Z'])) = some (Numeral.value ds * Nat.pow 10 (9 - ds.length), ['Z'])
      := by
  have htake : (ds ++ ['Z']).takeWhile Char.isDigit = ds := by
    rw [List.takeWhile_append_of_pos hd]
    simp
  have hdrop : (ds ++ ['Z']).dropWhile Char.isDigit = ['Z'] := by
    rw [List.dropWhile_append_of_pos hd]
    simp
  have hempty : ds.isEmpty = false := List.isEmpty_eq_false_iff.2 hne
  simp only [fraction?, htake, hdrop, hempty, nanosOf_eq hl, Bool.false_eq_true, if_false]

/-- A padded fraction of `width` digits counts that many digits behind the point. -/
theorem fraction?_padded {width n : Nat} (hw : 0 < width) (hw9 : width ≤ 9)
    (h : n < Nat.pow 10 width) :
    fraction? ('.' :: (Numeral.padded width n ++ ['Z']))
      = some (n * Nat.pow 10 (9 - width), ['Z']) := by
  have hlen : (Numeral.padded width n).length = width := Numeral.length_padded hw h
  have hread := fraction?_digits (Numeral.padded_ne_nil width n)
    (fun c hc => Numeral.isDigit_of_mem_padded hc) (by rw [hlen]; exact hw9)
  rwa [Numeral.value_padded, hlen] at hread

/-! ## The whole text -/

/-- **A stored timestamp is read back as the same instant, leap second and nanoseconds included,
just if its year has four digits.** -/
theorem ofStored?_storedText (t : Instant) :
    ofStored? t.storedText = if t.HasShortYear then some t else none := by
  by_cases hy : t.HasShortYear
  · rw [if_pos hy]
    obtain ⟨hhour, hminute, hsecond, hnano⟩ := t.isTimeOfDay
    have hyear : ((t.date.year.toNat : Nat) : Int) = t.date.year := Int.toNat_of_nonneg hy.1
    have hdate : Date.ofFields? t.date.year.toNat t.date.month t.date.day = some t.date := by
      rw [hyear, Date.ofFields?_self]
    have hfraction :
        fraction? ('.' :: (Numeral.padded 9 t.nano ++ ['Z'])) = some (t.nano, ['Z']) := by
      rw [fraction?_padded (by decide) (by decide) hnano]
      exact congrArg (fun n => some (n, ['Z'])) (Nat.mul_one t.nano)
    have hzero : t.earlier? 0 = some t := t.earlier?_zero
    -- field by field, each in front of the rest of the text
    refine Option.bind_eq_some_iff.2 ⟨_, take?_yearText hy _, ?_⟩
    refine Option.bind_eq_some_iff.2 ⟨_, Text.after?_cons_self '-' _, ?_⟩
    refine Option.bind_eq_some_iff.2 ⟨_, take?_two t.date.month_lt _, ?_⟩
    refine Option.bind_eq_some_iff.2 ⟨_, Text.after?_cons_self '-' _, ?_⟩
    refine Option.bind_eq_some_iff.2 ⟨_, take?_two t.date.day_lt _, ?_⟩
    refine Option.bind_eq_some_iff.2 ⟨_, hdate, ?_⟩
    refine Option.bind_eq_some_iff.2 ⟨_, rfl, ?_⟩
    refine Option.bind_eq_some_iff.2 ⟨_, take?_two (by omega) _, ?_⟩
    refine Option.bind_eq_some_iff.2 ⟨_, Text.after?_cons_self ':' _, ?_⟩
    refine Option.bind_eq_some_iff.2 ⟨_, take?_two (by omega) _, ?_⟩
    refine Option.bind_eq_some_iff.2 ⟨_, Text.after?_cons_self ':' _, ?_⟩
    refine Option.bind_eq_some_iff.2 ⟨_, take?_two (by omega) _, ?_⟩
    refine Option.bind_eq_some_iff.2 ⟨_, hfraction, ?_⟩
    refine Option.bind_eq_some_iff.2 ⟨0, rfl, ?_⟩
    exact Option.bind_eq_some_iff.2 ⟨_, ofFields?_self t, hzero⟩
  · rw [if_neg hy]
    exact Option.bind_eq_none_iff.2 fun a ha =>
      absurd ((take?_yearText_eq_none hy _).symm.trans ha) (by simp)

end OfflineChat.Instant
