import OfflineChat.Time.Calendar

/-! # Instants

A moment of universal time to the nanosecond, held as its calendar fields. A leap second is second
60 and may stand in any minute. Main definitions: `Instant`, its order by `Instant.rank`,
`Instant.ofFields?` and `Instant.earlier?`. Main statement: the order is total
(`le_total`, `rank_injective`). -/

set_option autoImplicit false

namespace OfflineChat

/-- The numbers form a time of day; second 60 is a leap second. -/
def IsTimeOfDay (hour minute second nano : Nat) : Prop :=
  hour < 24 ∧ minute < 60 ∧ second ≤ 60 ∧ nano < 1_000_000_000

instance (hour minute second nano : Nat) : Decidable (IsTimeOfDay hour minute second nano) :=
  inferInstanceAs (Decidable (_ ∧ _))

/-- A moment of universal time. -/
structure Instant where
  date : Date
  hour : Nat
  minute : Nat
  second : Nat
  nano : Nat
  isTimeOfDay : IsTimeOfDay hour minute second nano
  deriving DecidableEq

namespace Instant

/-- The moment on this day, if the numbers form a time of day. -/
def ofFields? (date : Date) (hour minute second nano : Nat) : Option Instant :=
  if h : IsTimeOfDay hour minute second nano then some ⟨date, hour, minute, second, nano, h⟩
  else none

@[simp] theorem ofFields?_self (t : Instant) :
    ofFields? t.date t.hour t.minute t.second t.nano = some t := by
  simp [ofFields?, t.isTimeOfDay]

/-- Places an instant in time: its fields as the digits of a mixed-radix number, so that a leap
second comes after second 59 and before the next minute. -/
def rank (t : Instant) : Int :=
  (((((t.date.year * 13 + t.date.month) * 32 + t.date.day) * 24 + t.hour) * 60 + t.minute) * 61
    + t.second) * 1_000_000_000 + t.nano

instance : LE Instant := ⟨fun a b => a.rank ≤ b.rank⟩

instance : LT Instant := ⟨fun a b => a.rank < b.rank⟩

instance (a b : Instant) : Decidable (a ≤ b) := inferInstanceAs (Decidable (a.rank ≤ b.rank))

instance (a b : Instant) : Decidable (a < b) := inferInstanceAs (Decidable (a.rank < b.rank))

theorem lt_def {a b : Instant} : a < b ↔ a.rank < b.rank := Iff.rfl

theorem le_total (a b : Instant) : a ≤ b ∨ b ≤ a := Int.le_total a.rank b.rank

/-- The day of a time that lies `minutes` before or after midnight of a day, and the minutes since
that day's midnight; less than a day either way. -/
def settle? (date : Date) (minutes : Int) : Option (Date × Nat) :=
  if minutes < 0 then date.previous?.map (·, (minutes + 1440).toNat)
  else if 1440 ≤ minutes then date.next?.map (·, (minutes - 1440).toNat)
  else some (date, minutes.toNat)

/-- The instant `offset` minutes earlier, for an offset of less than a day: the universal time of a
clock that runs `offset` minutes ahead of it. -/
def earlier? (t : Instant) (offset : Int) : Option Instant :=
  match settle? t.date (t.hour * 60 + t.minute - offset) with
  | some (date, minutes) => ofFields? date (minutes / 60) (minutes % 60) t.second t.nano
  | none => none

/-- The day `n` days later. -/
def daysLater? : Nat → Date → Option Date
  | 0, d => some d
  | n + 1, d => d.next?.bind (daysLater? n)

/-- The instant this many milliseconds later, if it is in the supported span. -/
def later? (t : Instant) (milliseconds : Nat) : Option Instant :=
  let nanos := t.nano + milliseconds % 1000 * 1_000_000
  let seconds := (t.hour * 60 + t.minute) * 60 + t.second + milliseconds / 1000
    + nanos / 1_000_000_000
  -- a leap second at the start counts as the first second of the next minute
  (daysLater? (seconds / 86400) t.date).bind fun date =>
    let second := seconds % 86400
    ofFields? date (second / 3600) (second / 60 % 60) (second % 60) (nanos % 1_000_000_000)

/-- The instant this many seconds and nanoseconds after the beginning of 1970, if it is in the
supported span; leap seconds do not count. -/
def sinceEpoch? (seconds nanos : Nat) : Option Instant :=
  (Date.ofFields? 1970 1 1).bind (daysLater? (seconds / 86400)) |>.bind fun date =>
    let second := seconds % 86400
    ofFields? date (second / 3600) (second / 60 % 60) (second % 60) nanos

theorem earlier?_zero (t : Instant) : t.earlier? 0 = some t := by
  obtain ⟨date, hour, minute, second, nano, ⟨hh, hm, hs, hn⟩⟩ := t
  have h1 : ¬ ((hour : Int) * 60 + minute - 0 < 0) := by omega
  have h2 : ¬ (1440 ≤ (hour : Int) * 60 + minute - 0) := by omega
  have h3 : ((hour : Int) * 60 + minute - 0).toNat = hour * 60 + minute := by omega
  have h4 : (hour * 60 + minute) / 60 = hour := by omega
  have h5 : (hour * 60 + minute) % 60 = minute := by omega
  simp only [earlier?, settle?, h1, h2, if_false, h3, h4, h5]
  exact ofFields?_self ⟨date, hour, minute, second, nano, ⟨hh, hm, hs, hn⟩⟩

theorem rank_injective {a b : Instant} (h : a.rank = b.rank) : a = b := by
  obtain ⟨⟨y, m, d, hd⟩, hour, minute, second, nano, ⟨h1, h2, h3, h4⟩⟩ := a
  obtain ⟨⟨y', m', d', hd'⟩, hour', minute', second', nano', ⟨h1', h2', h3', h4'⟩⟩ := b
  have m1 := hd.2.2.2.1
  have m2 := hd'.2.2.2.1
  have d1 : d ≤ 31 := Nat.le_trans hd.2.2.2.2.2 (by
    unfold monthLength; split <;> (try split) <;> omega)
  have d2 : d' ≤ 31 := Nat.le_trans hd'.2.2.2.2.2 (by
    unfold monthLength; split <;> (try split) <;> omega)
  simp only [rank] at h
  have e : y = y' ∧ m = m' ∧ d = d' ∧ hour = hour' ∧ minute = minute' ∧ second = second' ∧
      nano = nano' := by omega
  obtain ⟨rfl, rfl, rfl, rfl, rfl, rfl, rfl⟩ := e
  rfl

end Instant

end OfflineChat
