import OfflineChat.Proofs.Time.StoredOrder

/-! # Days and seconds are counted

Calendar fields are laid on a timeline: every day has a number, counted over leap years and months of
different lengths, and every instant the seconds since the beginning of 1970. A leap second prolongs
the second before it. Main definitions: `Date.number`, `Instant.seconds`, `Instant.subsecond` and
`Instant.IsEarlier`. Main statements: `Date.daysLater?_eq_some_iff` (going on by days adds to the
number), `Instant.lt_iff_isEarlier` and `Instant.sinceEpoch?_eq_some_iff`. -/

set_option autoImplicit false

namespace OfflineChat

/-! ## Days of the calendar -/

namespace Date

/-- The days from the beginning of year 1 to that of another year; negative before year 1. -/
def daysBeforeYear (year : Int) : Int :=
  365 * (year - 1) + (year - 1) / 4 - (year - 1) / 100 + (year - 1) / 400

/-- The days of a year before a month; all of them before a thirteenth. -/
def daysBeforeMonth (year : Int) : Nat → Nat
  | 0 => 0
  | 1 => 0
  | month + 2 => daysBeforeMonth year (month + 1) + monthLength year (month + 1)

/-- The number of a day; the first day of year 1 has number 1. -/
def number (d : Date) : Int :=
  daysBeforeYear d.year + daysBeforeMonth d.year d.month + d.day

theorem daysBeforeMonth_succ (year : Int) {month : Nat} (h : 1 ≤ month) :
    daysBeforeMonth year (month + 1) = daysBeforeMonth year month + monthLength year month := by
  obtain ⟨m, rfl⟩ := Nat.exists_eq_add_of_le' h
  rfl

theorem daysBeforeMonth_mono (year : Int) {m n : Nat} (h : m ≤ n) :
    daysBeforeMonth year m ≤ daysBeforeMonth year n := by
  have hstep : ∀ n, daysBeforeMonth year n ≤ daysBeforeMonth year (n + 1) := by
    intro n
    cases n with
    | zero => exact Nat.le_refl _
    | succ n => exact Nat.le_add_right _ _
  induction h with
  | refl => exact Nat.le_refl _
  | step _ ih => exact Nat.le_trans ih (hstep _)

/-- A year has a day more than 365 if it is a leap year. -/
theorem daysBeforeMonth_thirteen (year : Int) :
    daysBeforeMonth year 13 = if isLeapYear year then 366 else 365 := by
  simp only [daysBeforeMonth, monthLength]
  split <;> rfl

theorem daysBeforeYear_succ (year : Int) :
    daysBeforeYear (year + 1) = daysBeforeYear year + daysBeforeMonth year 13 := by
  have hleap : isLeapYear year = true ↔ year % 4 = 0 ∧ (year % 100 ≠ 0 ∨ year % 400 = 0) := by
    simp [isLeapYear]
  rw [daysBeforeMonth_thirteen, daysBeforeYear, daysBeforeYear]
  split
  · next h =>
      have hyear := hleap.1 h
      omega
  · next h =>
      have hyear := mt hleap.2 h
      omega

theorem daysBeforeYear_mono {x y : Int} (h : x ≤ y) : daysBeforeYear x ≤ daysBeforeYear y := by
  unfold daysBeforeYear
  omega

theorem day_le_monthLength (d : Date) : d.day ≤ monthLength d.year d.month :=
  d.exists_day.2.2.2.2.2

/-! ## The order of days -/

/-- The days of a month come before the next month. -/
theorem daysBeforeMonth_add_day_le (d : Date) {month : Nat} (h : d.month < month) :
    daysBeforeMonth d.year d.month + d.day ≤ daysBeforeMonth d.year month := by
  have hday := d.day_le_monthLength
  have hsucc := daysBeforeMonth_succ d.year d.exists_day.2.2.1
  have hmono := daysBeforeMonth_mono d.year (show d.month + 1 ≤ month from h)
  omega

/-- The days of a year come before the next year. -/
theorem number_le_daysBeforeYear (d : Date) {year : Int} (h : d.year < year) :
    d.number ≤ daysBeforeYear year := by
  have hmonth := d.exists_day.2.2.2.1
  have hday := d.daysBeforeMonth_add_day_le (show d.month < 13 from Nat.lt_succ_of_le hmonth)
  have hsucc := daysBeforeYear_succ d.year
  have hmono := daysBeforeYear_mono (show d.year + 1 ≤ year from h)
  unfold number
  omega

theorem daysBeforeYear_lt_number (d : Date) : daysBeforeYear d.year < d.number := by
  have hday := d.exists_day.2.2.2.2.1
  unfold number
  omega

/-- One day comes before another, field by field. -/
def IsBefore (d e : Date) : Prop :=
  d.year < e.year ∨ d.year = e.year ∧
    (d.month < e.month ∨ d.month = e.month ∧ d.day < e.day)

theorem number_lt_of_isBefore {d e : Date} (h : d.IsBefore e) : d.number < e.number := by
  rcases h with hyear | ⟨hyear, hmonth | ⟨hmonth, hday⟩⟩
  · exact Int.lt_of_le_of_lt (d.number_le_daysBeforeYear hyear) e.daysBeforeYear_lt_number
  · have hfront := d.daysBeforeMonth_add_day_le hmonth
    have hday := e.exists_day.2.2.2.2.1
    rw [number, number, ← hyear]
    omega
  · rw [number, number, ← hyear, ← hmonth]
    omega

theorem isBefore_trichotomy (d e : Date) : d.IsBefore e ∨ d = e ∨ e.IsBefore d := by
  by_cases hsame : d.year = e.year ∧ d.month = e.month ∧ d.day = e.day
  · have hself := ofFields?_eq_some_iff.2 hsame
    rw [ofFields?_self] at hself
    exact .inr (.inl (Option.some.inj hself).symm)
  · unfold IsBefore
    omega

/-- **Days are numbered in their order.** -/
theorem number_lt_iff {d e : Date} : d.number < e.number ↔ d.IsBefore e := by
  refine ⟨fun h => ?_, number_lt_of_isBefore⟩
  rcases isBefore_trichotomy d e with hbefore | rfl | hafter
  · exact hbefore
  · exact absurd h (Int.lt_irrefl _)
  · exact absurd h (Int.lt_asymm (number_lt_of_isBefore hafter))

theorem number_inj {d e : Date} : d.number = e.number ↔ d = e := by
  refine ⟨fun h => ?_, congrArg number⟩
  rcases isBefore_trichotomy d e with hbefore | hsame | hafter
  · exact absurd h (Int.ne_of_lt (number_lt_of_isBefore hbefore))
  · exact hsame
  · exact absurd h.symm (Int.ne_of_lt (number_lt_of_isBefore hafter))

/-! ## Going on by days -/

theorem number_of_next? {d e : Date} (h : d.next? = some e) : e.number = d.number + 1 := by
  have hday := d.day_le_monthLength
  have hmonth := d.exists_day.2.2.2.1
  unfold next? at h
  split at h
  · -- within the month
    obtain ⟨hy, hm, hd⟩ := ofFields?_eq_some_iff.1 h
    rw [number, number, hy, hm, hd]
    omega
  · next hlast =>
      have hsucc := daysBeforeMonth_succ d.year d.exists_day.2.2.1
      split at h
      · -- the last of a month, but not of the year
        obtain ⟨hy, hm, hd⟩ := ofFields?_eq_some_iff.1 h
        rw [number, number, hy, hm, hd]
        omega
      · -- the last of the year
        obtain ⟨hy, hm, hd⟩ := ofFields?_eq_some_iff.1 h
        have hdecember : d.month = 12 := by omega
        have hyear := daysBeforeYear_succ d.year
        have hfirst : daysBeforeMonth (d.year + 1) 1 = 0 := rfl
        rw [hdecember] at hsucc hlast hday
        have hwhole : daysBeforeMonth d.year 13 = daysBeforeMonth d.year 12 + d.day := by
          rw [Nat.le_antisymm hday (Nat.not_lt.1 hlast)]
          exact hsucc
        rw [number, number, hy, hm, hd, hdecember, hyear, hfirst, hwhole]
        omega

theorem exists_ofFields? {year : Int} {month day : Nat} (h : IsDate year month day) :
    ∃ d, ofFields? year month day = some d := ⟨_, dif_pos h⟩

theorem one_le_monthLength (year : Int) (month : Nat) : 1 ≤ monthLength year month := by
  unfold monthLength
  split <;> (try split) <;> omega

/-- Only the last day of all has no day after it. -/
theorem exists_next? {d e : Date} (h : d.number < e.number) : ∃ d', d.next? = some d' := by
  obtain ⟨hlow, hhigh, hmonth, htwelve, hday, hlength⟩ := d.exists_day
  unfold next?
  split
  · next hinside => exact exists_ofFields? ⟨hlow, hhigh, hmonth, htwelve, by omega, hinside⟩
  · split
    · next hinside =>
        exact exists_ofFields?
          ⟨hlow, hhigh, by omega, hinside, Nat.le_refl 1, one_le_monthLength _ _⟩
    · next hlastDay hlastMonth =>
        -- a later day is in a later year
        have hyear : d.year < e.year := by
          rcases number_lt_iff.1 h with hyear | ⟨hyear, hlater | ⟨hsame, hlater⟩⟩
          · exact hyear
          · have := e.exists_day.2.2.2.1
            omega
          · have := e.day_le_monthLength
            rw [← hyear, ← hsame] at this
            omega
        have hmax := e.exists_day.2.1
        exact exists_ofFields?
          ⟨by omega, by omega, Nat.le_refl 1, by decide, Nat.le_refl 1, one_le_monthLength _ _⟩

/-- **Going on by days adds to the number of the day**, and leads to every later day. -/
theorem daysLater?_eq_some_iff {n : Nat} {d e : Date} :
    Instant.daysLater? n d = some e ↔ e.number = d.number + n := by
  induction n generalizing d with
  | zero =>
      rw [Instant.daysLater?, Option.some.injEq, ← number_inj]
      omega
  | succ n ih =>
      rw [Instant.daysLater?, Option.bind_eq_some_iff]
      constructor
      · rintro ⟨d', hnext, hlater⟩
        have hone := number_of_next? hnext
        have hrest := ih.1 hlater
        omega
      · intro h
        -- the day that is looked for is a later one, so there is a next day
        obtain ⟨d', hnext⟩ := exists_next? (d := d) (e := e) (by omega)
        have hone := number_of_next? hnext
        exact ⟨d', hnext, ih.2 (by omega)⟩

end Date

/-! ## Seconds -/

namespace Instant

/-- The seconds since the beginning of 1970, the leap seconds among them left out; a leap second
belongs to the second before it. -/
def seconds (t : Instant) : Int :=
  (t.date.number - 719_163) * 86400 + (t.hour * 3600 + t.minute * 60 + min t.second 59)

/-- The nanoseconds since the second began, which go on through a leap second. -/
def subsecond (t : Instant) : Nat :=
  if t.second = 60 then 1_000_000_000 + t.nano else t.nano

/-- One instant comes before another on the timeline. -/
def IsEarlier (s t : Instant) : Prop :=
  s.seconds < t.seconds ∨ s.seconds = t.seconds ∧ s.subsecond < t.subsecond

instance (s t : Instant) : Decidable (s.IsEarlier t) := inferInstanceAs (Decidable (_ ∨ _))

/-- Instants of one day are in the order of their times of day. -/
theorem isEarlier_iff_of_date_eq {s t : Instant} (h : s.date = t.date) :
    s.IsEarlier t ↔ s.hour < t.hour ∨ s.hour = t.hour ∧
      (s.minute < t.minute ∨ s.minute = t.minute ∧
        (s.second < t.second ∨ s.second = t.second ∧ s.nano < t.nano)) := by
  obtain ⟨hsh, hsm, hss, hsn⟩ := s.isTimeOfDay
  obtain ⟨hth, htm, hts, htn⟩ := t.isTimeOfDay
  unfold IsEarlier seconds subsecond
  rw [h]
  split <;> split <;> omega

/-- A day is over before the next one begins. -/
theorem seconds_lt_of_number_lt {s t : Instant} (h : s.date.number < t.date.number) :
    s.seconds < t.seconds := by
  obtain ⟨hsh, hsm, hss, hsn⟩ := s.isTimeOfDay
  unfold seconds
  omega

/-- **The order of instants is that of the timeline.** -/
theorem lt_iff_isEarlier {s t : Instant} : s < t ↔ s.IsEarlier t := by
  rw [lt_iff_fields]
  -- the days decide, and the times of day only if the days are the same
  rcases Date.isBefore_trichotomy s.date t.date with hbefore | hsame | hafter
  · have hseconds := seconds_lt_of_number_lt (Date.number_lt_iff.2 hbefore)
    unfold Date.IsBefore at hbefore
    exact ⟨fun _ => .inl hseconds, fun _ => by omega⟩
  · rw [isEarlier_iff_of_date_eq hsame, hsame]
    simp
  · have hseconds := seconds_lt_of_number_lt (Date.number_lt_iff.2 hafter)
    unfold Date.IsBefore at hafter
    unfold IsEarlier
    omega

theorem ofFields?_eq_some_iff {date : Date} {hour minute second nano : Nat} {t : Instant} :
    ofFields? date hour minute second nano = some t ↔
      t.date = date ∧ t.hour = hour ∧ t.minute = minute ∧ t.second = second ∧ t.nano = nano := by
  constructor
  · intro h
    unfold ofFields? at h
    split at h
    · obtain rfl := Option.some.inj h
      exact ⟨rfl, rfl, rfl, rfl, rfl⟩
    · exact absurd h (by simp)
  · rintro ⟨rfl, rfl, rfl, rfl, rfl⟩
    exact ofFields?_self t

/-- The seconds are counted from this day on. -/
theorem exists_first1970 : ∃ d, Date.ofFields? 1970 1 1 = some d ∧ d.number = 719_163 :=
  ⟨_, rfl, rfl⟩

/-- **The instant so many seconds and nanoseconds after the beginning of 1970 is the one that stands
there on the timeline.** -/
theorem sinceEpoch?_eq_some_iff {seconds nanos : Nat} (h : nanos < 1_000_000_000) {t : Instant} :
    sinceEpoch? seconds nanos = some t ↔ t.seconds = seconds ∧ t.subsecond = nanos := by
  obtain ⟨first, hfirst, hnumber⟩ := exists_first1970
  obtain ⟨hhour, hminute, hsecond, hnano⟩ := t.isTimeOfDay
  rw [sinceEpoch?, hfirst, Option.bind_some, Option.bind_eq_some_iff]
  unfold Instant.seconds subsecond
  constructor
  · rintro ⟨date, hdate, hfields⟩
    rw [Date.daysLater?_eq_some_iff, hnumber] at hdate
    obtain ⟨rfl, hh, hm, hs, hn⟩ := ofFields?_eq_some_iff.1 hfields
    have hordinary : t.second ≠ 60 := by
      have hlt : seconds % 86400 % 60 < 60 := Nat.mod_lt _ (by decide)
      omega
    rw [if_neg hordinary]
    omega
  · rintro ⟨hseconds, hnanos⟩
    have hordinary : t.second ≠ 60 := by
      -- a leap second has at least a thousand million nanoseconds
      intro hleap
      rw [if_pos hleap] at hnanos
      omega
    rw [if_neg hordinary] at hnanos
    refine ⟨t.date, ?_, ofFields?_eq_some_iff.2 ⟨rfl, ?_⟩⟩
    · rw [Date.daysLater?_eq_some_iff, hnumber]
      omega
    · omega

end Instant

end OfflineChat
