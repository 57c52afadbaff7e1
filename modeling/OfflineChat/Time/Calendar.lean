/-! # Calendar dates

Days of the proleptic Gregorian calendar. A `Date` carries the proof that the day exists and that
its year lies in the supported span. Main definitions: `Date`, `Date.ofFields?`, `Date.next?` and
`Date.previous?`. -/

set_option autoImplicit false

namespace OfflineChat

/-- A leap year is divisible by four, and by four hundred if it ends a century. -/
def isLeapYear (year : Int) : Bool :=
  year % 4 == 0 && (year % 100 != 0 || year % 400 == 0)

/-- The number of days of a month; months are numbered from 1. -/
def monthLength (year : Int) (month : Nat) : Nat :=
  match month with
  | 2 => if isLeapYear year then 29 else 28
  | 4 | 6 | 9 | 11 => 30
  | _ => 31

/-- The first supported year. -/
def minYear : Int := -262143

/-- The last supported year. -/
def maxYear : Int := 262142

/-- The three numbers name an existing day of a supported year. -/
def IsDate (year : Int) (month day : Nat) : Prop :=
  minYear ≤ year ∧ year ≤ maxYear ∧ 1 ≤ month ∧ month ≤ 12 ∧ 1 ≤ day ∧ day ≤ monthLength year month

instance (year : Int) (month day : Nat) : Decidable (IsDate year month day) :=
  inferInstanceAs (Decidable (_ ∧ _))

/-- A day of the calendar. -/
structure Date where
  year : Int
  month : Nat
  day : Nat
  exists_day : IsDate year month day
  deriving DecidableEq

namespace Date

/-- The day with these numbers, if there is one. -/
def ofFields? (year : Int) (month day : Nat) : Option Date :=
  if h : IsDate year month day then some ⟨year, month, day, h⟩ else none

@[simp] theorem ofFields?_self (d : Date) : ofFields? d.year d.month d.day = some d := by
  simp [ofFields?, d.exists_day]

theorem ofFields?_eq_some_iff {year : Int} {month day : Nat} {d : Date} :
    ofFields? year month day = some d ↔ d.year = year ∧ d.month = month ∧ d.day = day := by
  constructor
  · intro h
    unfold ofFields? at h
    split at h
    · simp only [Option.some.injEq] at h
      subst h
      exact ⟨rfl, rfl, rfl⟩
    · exact absurd h (by simp)
  · rintro ⟨rfl, rfl, rfl⟩
    exact ofFields?_self d

/-- The day after: the next of the month, else the first of the next month, else new year. -/
def next? (d : Date) : Option Date :=
  if d.day < monthLength d.year d.month then ofFields? d.year d.month (d.day + 1)
  else if d.month < 12 then ofFields? d.year (d.month + 1) 1
  else ofFields? (d.year + 1) 1 1

/-- The day before. -/
def previous? (d : Date) : Option Date :=
  if 1 < d.day then ofFields? d.year d.month (d.day - 1)
  else if 1 < d.month then ofFields? d.year (d.month - 1) (monthLength d.year (d.month - 1))
  else ofFields? (d.year - 1) 12 31

theorem month_lt (d : Date) : d.month < 100 := by
  have := d.exists_day.2.2.2.1
  omega

theorem day_le (d : Date) : d.day ≤ 31 := by
  have h := d.exists_day.2.2.2.2.2
  have : monthLength d.year d.month ≤ 31 := by
    unfold monthLength
    split <;> (try split) <;> omega
  omega

theorem day_lt (d : Date) : d.day < 100 := by
  have := d.day_le
  omega

end Date

end OfflineChat
