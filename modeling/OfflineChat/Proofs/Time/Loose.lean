import Mathlib.Data.List.TakeWhile
import OfflineChat.Proofs.Time.Stored
import OfflineChat.Time.Loose

/-! # Timestamps of documents are read back

The text of an instant in a document is read back whatever its year is: a sign stands in front of
every year that has not four digits, and blanks, which the reader skips, are never written. Main
statement: `Instant.ofLoose?_documentText`. -/

set_option autoImplicit false

namespace OfflineChat

/-! ## Runs of digits -/

theorem Text.isBlank_of_isDigit {c : Char} (h : c.isDigit = true) : isBlank c = false := by
  simp only [Char.isDigit, Bool.and_eq_true, decide_eq_true_eq] at h
  have hlow : 48 ≤ c.toNat := h.1
  have hhigh : c.toNat ≤ 57 := h.2
  simp only [isBlank, Bool.or_eq_false_iff, Bool.and_eq_false_iff, decide_eq_false_iff_not,
    beq_eq_false_iff_ne]
  omega

/-- No blank is skipped in front of a digit. -/
theorem Text.trimStart_digits {ds : List Char} (hne : ds ≠ []) (hd : ∀ c ∈ ds, c.isDigit = true)
    (rest : List Char) : trimStart (ds ++ rest) = ds ++ rest := by
  cases ds with
  | nil => exact absurd rfl hne
  | cons d ds => exact trimStart_eq_self _ (isBlank_of_isDigit (hd d List.mem_cons_self))

namespace Numeral

/-- A full number of digits is read as such, whatever follows. -/
theorem upTo?_padded {width n : Nat} (hw : 0 < width) (h : n < Nat.pow 10 width)
    (rest : List Char) : upTo? width (padded width n ++ rest) = some (n, rest) := by
  have hlen : (padded width n).length = width := length_padded hw h
  have htake : (padded width n ++ rest).take width = padded width n := by
    rw [List.take_append_of_le_length (Nat.le_of_eq hlen.symm),
      List.take_of_length_le (Nat.le_of_eq hlen)]
  have hwhile : (padded width n).takeWhile Char.isDigit = padded width n :=
    List.takeWhile_eq_self_iff.2 fun c hc => isDigit_of_mem_padded hc
  have hempty : (padded width n).isEmpty = false :=
    List.isEmpty_eq_false_iff.2 (padded_ne_nil width n)
  have hdrop : (padded width n ++ rest).drop (padded width n).length = rest := List.drop_left
  simp only [upTo?, htake, hwhile, hempty, hdrop, value_padded, Bool.false_eq_true, if_false]

/-- All digits in front of another character are read. -/
theorem run?_padded (width n : Nat) {c : Char} (hc : c.isDigit = false) (rest : List Char) :
    run? (padded width n ++ c :: rest) = some (n, c :: rest) := by
  have hd : ∀ d ∈ padded width n, d.isDigit = true := fun d hd => isDigit_of_mem_padded hd
  have htake : (padded width n ++ c :: rest).takeWhile Char.isDigit = padded width n := by
    rw [List.takeWhile_append_of_pos hd, List.takeWhile_cons_of_neg (by simp [hc]),
      List.append_nil]
  have hdrop : (padded width n ++ c :: rest).dropWhile Char.isDigit = c :: rest := by
    rw [List.dropWhile_append_of_pos hd, List.dropWhile_cons_of_neg (by simp [hc])]
  have hempty : (padded width n).isEmpty = false :=
    List.isEmpty_eq_false_iff.2 (padded_ne_nil width n)
  simp only [run?, htake, hdrop, hempty, value_padded, Bool.false_eq_true, if_false]

end Numeral

namespace Instant

/-! ## Fields -/

theorem looseField?_padded {n : Nat} (h : n < 100) (rest : List Char) :
    looseField? (Numeral.padded 2 n ++ rest) = some (n, rest) := by
  have htrim := Text.trimStart_digits (Numeral.padded_ne_nil 2 n)
    (fun c hc => Numeral.isDigit_of_mem_padded hc) rest
  rw [looseField?, htrim, Numeral.upTo?_padded (by decide) h]

theorem looseMark?_cons_self {c : Char} (h : Text.isBlank c = false) (rest : List Char) :
    looseMark? c (c :: rest) = some rest := by
  rw [looseMark?, Text.trimStart_eq_self rest h, Text.after?_cons_self]

/-- A year without a sign has four digits at most. -/
theorem looseYear?_of_isDigit {d : Char} (h : d.isDigit = true) (rest : List Char) :
    looseYear? (d :: rest) = (Numeral.upTo? 4 (d :: rest)).map fun (n, cs) => ((n : Int), cs) := by
  have hminus : d ≠ '-' := by
    rintro rfl
    exact absurd h (by decide)
  have hplus : d ≠ '+' := by
    rintro rfl
    exact absurd h (by decide)
  rw [looseYear?, Text.trimStart_eq_self rest (Text.isBlank_of_isDigit h)]
  split
  · next he => exact absurd (List.cons.inj he).1 hminus
  · next he => exact absurd (List.cons.inj he).1 hplus
  · rfl

/-- A year is read back, with its sign if it has one. -/
theorem looseYear?_yearText (year : Int) (rest : List Char) :
    looseYear? (yearText year ++ '-' :: rest) = some (year, '-' :: rest) := by
  by_cases h : 0 ≤ year ∧ year ≤ 9999
  · have hyear : ((year.toNat : Nat) : Int) = year := Int.toNat_of_nonneg h.1
    have hread := Numeral.upTo?_padded (by decide) (toNat_year_lt h) ('-' :: rest)
    have hdigit : ∀ c ∈ Numeral.padded 4 year.toNat, c.isDigit = true :=
      fun c hc => Numeral.isDigit_of_mem_padded hc
    rw [yearText, if_pos h]
    obtain ⟨d, ds, hds⟩ := List.exists_cons_of_ne_nil (Numeral.padded_ne_nil 4 year.toNat)
    rw [hds] at hread hdigit ⊢
    rw [List.cons_append, looseYear?_of_isDigit (hdigit d List.mem_cons_self),
      ← List.cons_append, hread]
    exact congrArg (fun y => some (y, '-' :: rest)) hyear
  · -- behind a sign all digits belong to the year
    have hread := Numeral.run?_padded 4 year.natAbs (by decide : '-'.isDigit = false) rest
    rw [yearText, if_neg h]
    by_cases hn : year < 0
    · have hyear : -(year.natAbs : Int) = year := by omega
      rw [if_pos hn, List.cons_append, looseYear?, Text.trimStart_eq_self _ (by decide)]
      show (Numeral.run? _).map _ = _
      rw [hread]
      exact congrArg (fun y => some (y, '-' :: rest)) hyear
    · have hyear : (year.natAbs : Int) = year := by omega
      rw [if_neg hn, List.cons_append, looseYear?, Text.trimStart_eq_self _ (by decide)]
      show (Numeral.run? _).map _ = _
      rw [hread]
      exact congrArg (fun y => some (y, '-' :: rest)) hyear

/-! ## The fraction -/

theorem fraction?_shortFraction {nano : Nat} (h : nano < 1_000_000_000) :
    fraction? (shortFraction nano ++ ['Z']) = some (nano, ['Z']) := by
  unfold shortFraction
  split
  · next hzero => rw [hzero]; rfl
  · split
    · next hmillis =>
        have hlt : nano / 1_000_000 < Nat.pow 10 3 := by
          show nano / 1_000_000 < 1000
          omega
        have hvalue : nano / 1_000_000 * Nat.pow 10 (9 - 3) = nano := by
          show nano / 1_000_000 * 1_000_000 = nano
          omega
        rw [List.cons_append, fraction?_padded (by decide) (by decide) hlt, hvalue]
    · split
      · next hmicros =>
          have hlt : nano / 1_000 < Nat.pow 10 6 := by
            show nano / 1_000 < 1000000
            omega
          have hvalue : nano / 1_000 * Nat.pow 10 (9 - 6) = nano := by
            show nano / 1_000 * 1000 = nano
            omega
          rw [List.cons_append, fraction?_padded (by decide) (by decide) hlt, hvalue]
      · rw [List.cons_append, fraction?_padded (by decide) (by decide) h]
        exact congrArg (fun n => some (n, ['Z'])) (Nat.mul_one nano)

/-! ## The whole text -/

/-- **An instant is read back from its text in a document**, whatever its year, with a leap second
and all its nanoseconds. -/
theorem ofLoose?_documentText (t : Instant) : ofLoose? t.documentText = some t := by
  obtain ⟨hhour, hminute, hsecond, hnano⟩ := t.isTimeOfDay
  have hzero : t.earlier? 0 = some t := t.earlier?_zero
  have hoffset : looseOffset? (Text.trimStart ['Z']) = some (0, []) := rfl
  -- field by field, each in front of the rest of the text
  refine Option.bind_eq_some_iff.2 ⟨_, looseYear?_yearText t.date.year _, ?_⟩
  refine Option.bind_eq_some_iff.2 ⟨_, looseMark?_cons_self (by decide) _, ?_⟩
  refine Option.bind_eq_some_iff.2 ⟨_, looseField?_padded t.date.month_lt _, ?_⟩
  refine Option.bind_eq_some_iff.2 ⟨_, looseMark?_cons_self (by decide) _, ?_⟩
  refine Option.bind_eq_some_iff.2 ⟨_, looseField?_padded t.date.day_lt _, ?_⟩
  refine Option.bind_eq_some_iff.2 ⟨_, Date.ofFields?_self t.date, ?_⟩
  refine Option.bind_eq_some_iff.2 ⟨_, rfl, ?_⟩
  refine Option.bind_eq_some_iff.2 ⟨_, looseField?_padded (by omega) _, ?_⟩
  refine Option.bind_eq_some_iff.2 ⟨_, looseMark?_cons_self (by decide) _, ?_⟩
  refine Option.bind_eq_some_iff.2 ⟨_, looseField?_padded (by omega) _, ?_⟩
  refine Option.bind_eq_some_iff.2 ⟨_, looseMark?_cons_self (by decide) _, ?_⟩
  refine Option.bind_eq_some_iff.2 ⟨_, looseField?_padded (by omega) _, ?_⟩
  refine Option.bind_eq_some_iff.2 ⟨_, fraction?_shortFraction hnano, ?_⟩
  refine Option.bind_eq_some_iff.2 ⟨_, hoffset, ?_⟩
  exact Option.bind_eq_some_iff.2 ⟨_, ofFields?_self t, hzero⟩

end Instant

end OfflineChat
