import OfflineChat.Proofs.Time.Stored

/-! # Stored timestamps sort as instants do

Numerals of one width sort as the numbers they spell, because the first digit that differs decides
both. The text of an instant whose year has four digits is a row of such numerals, with the same
marks between them, from the year down to the nanoseconds. Main statement:
`Instant.storedText_lt_iff`. -/

set_option autoImplicit false

namespace OfflineChat

/-! ## Numerals of one width -/

namespace Numeral

theorem isDigit_iff {c : Char} : c.isDigit = true ↔ 48 ≤ c.toNat ∧ c.toNat ≤ 57 := by
  simp only [Char.isDigit, Bool.and_eq_true, decide_eq_true_eq, ge_iff_le, UInt32.le_iff_toNat_le]
  rfl

theorem char_lt_iff {c d : Char} : c < d ↔ c.toNat < d.toNat := UInt32.lt_iff_toNat_lt

theorem value_cons (c : Char) (cs : List Char) :
    value (c :: cs) = Nat.pow 10 cs.length * (c.toNat - 48) + value cs := by
  rw [value, Nat.ofDigitChars_cons, Nat.ofDigitChars_eq_ofDigitChars_zero, Nat.mul_zero,
    Nat.zero_add]
  rfl

theorem value_lt {ds : List Char} (h : ∀ c ∈ ds, c.isDigit = true) :
    value ds < Nat.pow 10 ds.length := by
  induction ds with
  | nil => exact Nat.one_pos
  | cons c cs ih =>
      obtain ⟨hc, hcs⟩ := List.forall_mem_cons.1 h
      have hdigit := isDigit_iff.1 hc
      have hrest := ih hcs
      calc value (c :: cs) = Nat.pow 10 cs.length * (c.toNat - 48) + value cs := value_cons c cs
        _ < Nat.pow 10 cs.length * (c.toNat - 48) + Nat.pow 10 cs.length :=
            Nat.add_lt_add_left hrest _
        _ = Nat.pow 10 cs.length * (c.toNat - 48 + 1) := by rw [Nat.mul_add, Nat.mul_one]
        _ ≤ Nat.pow 10 cs.length * 10 := Nat.mul_le_mul_left _ (by omega)
        _ = Nat.pow 10 (c :: cs).length := (Nat.pow_succ ..).symm

/-- A greater first digit outweighs all digits behind it. -/
theorem weigh_lt {width a b m n : Nat} (hab : a < b) (hm : m < Nat.pow 10 width) :
    Nat.pow 10 width * a + m < Nat.pow 10 width * b + n := by
  calc Nat.pow 10 width * a + m
      < Nat.pow 10 width * a + Nat.pow 10 width := Nat.add_lt_add_left hm _
    _ = Nat.pow 10 width * (a + 1) := by rw [Nat.mul_add, Nat.mul_one]
    _ ≤ Nat.pow 10 width * b := Nat.mul_le_mul_left _ hab
    _ ≤ Nat.pow 10 width * b + n := Nat.le_add_right _ _

/-- Of two runs of as many digits the smaller one denotes the smaller number. -/
theorem value_lt_value {ds es : List Char} (hlength : ds.length = es.length)
    (hds : ∀ c ∈ ds, c.isDigit = true) (hes : ∀ c ∈ es, c.isDigit = true) (h : ds < es) :
    value ds < value es := by
  induction ds generalizing es with
  | nil =>
      rw [List.eq_nil_of_length_eq_zero hlength.symm] at h
      exact absurd h (List.lt_irrefl _)
  | cons c cs ih =>
      cases es with
      | nil => exact absurd hlength (by simp)
      | cons d ds =>
          obtain ⟨hc, hcs⟩ := List.forall_mem_cons.1 hds
          obtain ⟨hd, hds⟩ := List.forall_mem_cons.1 hes
          have hrest : cs.length = ds.length := Nat.succ.inj hlength
          rw [value_cons, value_cons, ← hrest]
          rcases List.cons_lt_cons_iff.1 h with hlt | ⟨rfl, hlt⟩
          · have hlt := char_lt_iff.1 hlt
            have hdigit := isDigit_iff.1 hc
            exact weigh_lt (by omega) (value_lt hcs)
          · exact Nat.add_lt_add_left (ih hrest hcs hds hlt) _

/-- **Numerals of one width sort as their numbers.** -/
theorem padded_lt_iff {width m n : Nat} (hw : 0 < width) (hm : m < Nat.pow 10 width)
    (hn : n < Nat.pow 10 width) : padded width m < padded width n ↔ m < n := by
  have hmono : ∀ {m n : Nat}, m < Nat.pow 10 width → n < Nat.pow 10 width →
      padded width m < padded width n → m < n := by
    intro m n hm hn h
    have hlength := (length_padded hw hm).trans (length_padded hw hn).symm
    have hvalue := value_lt_value hlength (fun c hc => isDigit_of_mem_padded hc)
      (fun c hc => isDigit_of_mem_padded hc) h
    rwa [value_padded, value_padded] at hvalue
  constructor
  · exact hmono hm hn
  · intro h
    -- the order of texts is total, and the other two cases contradict the order of the numbers
    refine Decidable.byContradiction fun hnot => ?_
    rcases List.le_iff_lt_or_eq.1 (List.not_lt.1 hnot) with hlt | heq
    · exact absurd (hmono hn hm hlt) (Nat.lt_asymm h)
    · have hvalue := congrArg value heq
      rw [value_padded, value_padded] at hvalue
      omega

theorem padded_inj {width m n : Nat} : padded width m = padded width n ↔ m = n := by
  constructor
  · intro h
    have hvalue := congrArg value h
    rwa [value_padded, value_padded] at hvalue
  · rintro rfl
    rfl

/-! ## Numerals in front of texts -/

theorem append_lt_append_iff {xs ys as bs : List Char} (hlength : xs.length = ys.length) :
    xs ++ as < ys ++ bs ↔ xs < ys ∨ xs = ys ∧ as < bs := by
  induction xs generalizing ys with
  | nil =>
      rw [List.eq_nil_of_length_eq_zero hlength.symm]
      simp
  | cons x xs ih =>
      cases ys with
      | nil => exact absurd hlength (by simp)
      | cons y ys =>
          rw [List.cons_append, List.cons_append, List.cons_lt_cons_iff, List.cons_lt_cons_iff,
            ih (Nat.succ.inj hlength), List.cons.injEq]
          constructor
          · rintro (h | ⟨rfl, h | ⟨rfl, h⟩⟩)
            · exact .inl (.inl h)
            · exact .inl (.inr ⟨rfl, h⟩)
            · exact .inr ⟨⟨rfl, rfl⟩, h⟩
          · rintro ((h | ⟨rfl, h⟩) | ⟨⟨rfl, rfl⟩, h⟩)
            · exact .inl h
            · exact .inr ⟨rfl, .inl h⟩
            · exact .inr ⟨rfl, .inr ⟨rfl, h⟩⟩

/-- Texts that start with numerals of one width and the same mark sort by their numbers first. -/
theorem field_lt_iff {width m n : Nat} (hw : 0 < width) (hm : m < Nat.pow 10 width)
    (hn : n < Nat.pow 10 width) (mark : Char) (as bs : List Char) :
    padded width m ++ mark :: as < padded width n ++ mark :: bs ↔ m < n ∨ m = n ∧ as < bs := by
  have hlength := (length_padded hw hm).trans (length_padded hw hn).symm
  rw [append_lt_append_iff hlength, padded_lt_iff hw hm hn, padded_inj, List.cons_lt_cons_iff]
  simp

end Numeral

namespace Instant

/-- Instants are compared field by field, from the year down to the nanoseconds. -/
theorem lt_iff_fields {s t : Instant} :
    s < t ↔ s.date.year < t.date.year ∨ s.date.year = t.date.year ∧
      (s.date.month < t.date.month ∨ s.date.month = t.date.month ∧
        (s.date.day < t.date.day ∨ s.date.day = t.date.day ∧
          (s.hour < t.hour ∨ s.hour = t.hour ∧
            (s.minute < t.minute ∨ s.minute = t.minute ∧
              (s.second < t.second ∨ s.second = t.second ∧ s.nano < t.nano))))) := by
  obtain ⟨hsh, hsm, hss, hsn⟩ := s.isTimeOfDay
  obtain ⟨hth, htm, hts, htn⟩ := t.isTimeOfDay
  have hsmonth := s.date.exists_day.2.2.2.1
  have htmonth := t.date.exists_day.2.2.2.1
  have hsday := s.date.day_le
  have htday := t.date.day_le
  rw [lt_def, rank, rank]
  omega

/-- **Stored timestamps sort as the instants do**, if their years have four digits. -/
theorem storedText_lt_iff {s t : Instant} (hs : s.HasShortYear) (ht : t.HasShortYear) :
    s.storedText < t.storedText ↔ s < t := by
  obtain ⟨hsh, hsm, hss, hsn⟩ := s.isTimeOfDay
  obtain ⟨hth, htm, hts, htn⟩ := t.isTimeOfDay
  have htwo : ∀ {n : Nat}, n < 100 → n < Nat.pow 10 2 := id
  have hsecond : ∀ t : Instant, t.second < 100 := fun t => by
    have := t.isTimeOfDay.2.2.1
    omega
  have hys : yearText s.date.year = Numeral.padded 4 s.date.year.toNat := if_pos hs
  have hyt : yearText t.date.year = Numeral.padded 4 t.date.year.toNat := if_pos ht
  rw [lt_iff_fields, storedText, storedText, textWith, textWith, hys, hyt]
  simp only [List.cons_append]
  rw [Numeral.field_lt_iff (by decide) (toNat_year_lt hs) (toNat_year_lt ht),
    Numeral.field_lt_iff (by decide) (htwo s.date.month_lt) (htwo t.date.month_lt),
    Numeral.field_lt_iff (by decide) (htwo s.date.day_lt) (htwo t.date.day_lt),
    Numeral.field_lt_iff (by decide) (htwo (by omega)) (htwo (by omega)),
    Numeral.field_lt_iff (by decide) (htwo (by omega)) (htwo (by omega)),
    Numeral.field_lt_iff (by decide) (htwo (hsecond s)) (htwo (hsecond t)),
    Numeral.field_lt_iff (by decide) hsn htn]
  simp only [List.lt_irrefl, and_false, or_false]
  have hys : s.date.year.toNat < t.date.year.toNat ↔ s.date.year < t.date.year := by
    have := hs.1
    have := ht.1
    omega
  have hye : s.date.year.toNat = t.date.year.toNat ↔ s.date.year = t.date.year := by
    have := hs.1
    have := ht.1
    omega
  rw [hys, hye]

theorem ofList_storedText_lt_iff {s t : Instant} (hs : s.HasShortYear) (ht : t.HasShortYear) :
    String.ofList s.storedText < String.ofList t.storedText ↔ s < t := by
  rw [String.lt_iff, String.toList_ofList, String.toList_ofList, storedText_lt_iff hs ht]

/-- Stored timestamps are distinct, if the years of the instants have four digits. -/
theorem storedText_inj {s t : Instant} (hs : s.HasShortYear) (ht : t.HasShortYear) :
    s.storedText = t.storedText ↔ s = t := by
  constructor
  · intro h
    have hread := ofStored?_storedText s
    rw [h, ofStored?_storedText t, if_pos ht, if_pos hs] at hread
    exact (Option.some.inj hread).symm
  · rintro rfl
    rfl

end Instant

end OfflineChat
