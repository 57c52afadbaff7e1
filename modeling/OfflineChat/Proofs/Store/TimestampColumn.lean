import OfflineChat.Proofs.Store.ReadBack
import OfflineChat.Proofs.Text.ByteOrder
import OfflineChat.Proofs.Time.Timeline

/-! # A column of timestamps keeps value and order

Rows are ordered by the bytes of their texts, so a column of timestamps is in the order of time only
if its texts are, byte by byte. They are, because they are written in ASCII with one width, and all
fields stand at fixed places. Main definition: `Column.ComparesAs`. Main statement:
`Column.timestamps_keep_value_and_order`. -/

set_option autoImplicit false

namespace OfflineChat

/-! ## Bytes of ASCII texts -/

namespace Text

theorem utf8Size_of_isDigit {c : Char} (h : c.isDigit = true) : c.utf8Size = 1 := by
  simp only [Char.isDigit, Bool.and_eq_true, decide_eq_true_eq] at h
  exact Char.utf8Size_eq_one_iff.2 (UInt32.le_trans h.2 (by decide))

/-- A text of characters with one byte each has as many bytes as characters. -/
theorem length_bytes_of_utf8Size {cs : List Char} (h : ∀ c ∈ cs, c.utf8Size = 1) :
    (bytes (String.ofList cs)).length = cs.length := by
  rw [bytes_eq_flatMap, String.toList_ofList]
  induction cs with
  | nil => rfl
  | cons c cs ih =>
      obtain ⟨hc, hcs⟩ := List.forall_mem_cons.1 h
      rw [List.flatMap_cons, List.length_append, String.length_utf8EncodeChar, hc, ih hcs,
        List.length_cons, Nat.add_comm]

end Text

/-! ## The width of a stored text -/

namespace Instant

/-- A stored text is made of digits and marks. -/
theorem utf8Size_of_mem_storedText {t : Instant} {c : Char} (h : c ∈ t.storedText) :
    c.utf8Size = 1 := by
  have hnumeral : ∀ {width n : Nat}, c ∈ Numeral.padded width n → c.utf8Size = 1 :=
    fun hc => Text.utf8Size_of_isDigit (Numeral.isDigit_of_mem_padded hc)
  have hmark : ∀ {mark : Char}, c = mark → mark.utf8Size = 1 → c.utf8Size = 1 :=
    fun hc hmark => hc ▸ hmark
  have hyear : c ∈ yearText t.date.year → c.utf8Size = 1 := by
    unfold yearText
    split
    · exact hnumeral
    · intro hc
      rcases List.mem_cons.1 hc with hsign | hdigits
      · refine hmark hsign ?_
        split <;> rfl
      · exact hnumeral hdigits
  simp only [storedText, textWith, List.cons_append, List.mem_append, List.mem_cons,
    List.not_mem_nil, or_false] at h
  rcases h with h | h | h | h | h | h | h | h | h | h | h | h | h | h
  · exact hyear h
  all_goals first | exact hnumeral h | exact hmark h rfl

/-- All years with four digits take the same room. -/
theorem length_storedText {t : Instant} (h : t.HasShortYear) : t.storedText.length = 30 := by
  obtain ⟨hhour, hminute, hsecond, hnano⟩ := t.isTimeOfDay
  have htwo : ∀ {n : Nat}, n < 100 → (Numeral.padded 2 n).length = 2 :=
    fun h => Numeral.length_padded (by decide) h
  have hyear : (yearText t.date.year).length = 4 := by
    unfold yearText
    rw [if_pos (show _ ∧ _ from h), Numeral.length_padded (by decide) (toNat_year_lt h)]
  have hfraction : (Numeral.padded 9 t.nano).length = 9 := Numeral.length_padded (by decide) hnano
  simp only [storedText, textWith, List.length_append, List.length_cons, List.length_nil, hyear,
    htwo t.date.month_lt, htwo t.date.day_lt, htwo (show t.hour < 100 by omega),
    htwo (show t.minute < 100 by omega), htwo (show t.second < 100 by omega), hfraction]

theorem length_bytes_storedText {t : Instant} (h : t.HasShortYear) :
    (Text.bytes (String.ofList t.storedText)).length = 30 := by
  rw [Text.length_bytes_of_utf8Size fun _ => utf8Size_of_mem_storedText, length_storedText h]

end Instant

namespace Column

/-! ## Value and order -/

/-- Two texts are of one length, and compare byte by byte as two instants compare in time. -/
structure ComparesAs (x y : String) (s t : Instant) : Prop where
  length_eq : (Text.bytes x).length = (Text.bytes y).length
  lt_iff : Text.bytes x < Text.bytes y ↔ s.IsEarlier t
  gt_iff : Text.bytes y < Text.bytes x ↔ t.IsEarlier s
  eq_iff : x = y ↔ s = t

/-- The bytes of stored texts are in the order of time. -/
theorem bytes_storedText_lt_iff {s t : Instant} (hs : s.HasShortYear) (ht : t.HasShortYear) :
    Text.bytes (String.ofList s.storedText) < Text.bytes (String.ofList t.storedText) ↔
      s.IsEarlier t := by
  calc Text.bytes (String.ofList s.storedText) < Text.bytes (String.ofList t.storedText)
      ↔ String.ofList s.storedText < String.ofList t.storedText := Text.lt_iff_bytes_lt.symm
    _ ↔ s < t := Instant.ofList_storedText_lt_iff hs ht
    _ ↔ s.IsEarlier t := Instant.lt_iff_isEarlier

theorem comparesAs_storedText {s t : Instant} (hs : s.HasShortYear) (ht : t.HasShortYear) :
    ComparesAs (String.ofList s.storedText) (String.ofList t.storedText) s t where
  length_eq := (Instant.length_bytes_storedText hs).trans (Instant.length_bytes_storedText ht).symm
  lt_iff := bytes_storedText_lt_iff hs ht
  gt_iff := bytes_storedText_lt_iff ht hs
  eq_iff := String.ofList_inj.trans (Instant.storedText_inj hs ht)

/-- **A column of timestamps keeps value and order.** A timestamp is read back from the text that is
written for it, with a leap second and all its nanoseconds, just if its year has four digits; the
text of every other one is reported as unreadable at its column. The texts of timestamps with such
years are of one length, and compare byte by byte as the timestamps do in time. -/
theorem timestamps_keep_value_and_order :
    (∀ (index : Nat) (t : Instant), instant? index (ofInstant? (some t)) =
      if t.HasShortYear then .ok (some t) else .error (.unreadable index .timestamp)) ∧
    ∀ s t : Instant, s.HasShortYear → t.HasShortYear →
      ∃ x y, ofInstant? (some s) = some x ∧ ofInstant? (some t) = some y ∧ ComparesAs x y s t :=
  ⟨instant?_ofInstant?_some, fun _ _ hs ht => ⟨_, _, rfl, rfl, comparesAs_storedText hs ht⟩⟩

/-- The last nanosecond of a leap second at the end of a leap day. -/
def leapDayEnd : Instant := ⟨⟨2000, 2, 29, by decide⟩, 23, 59, 60, 999_999_999, by decide⟩

/-- The first nanosecond of the next day is over. -/
def marchFirst : Instant := ⟨⟨2000, 3, 1, by decide⟩, 0, 0, 0, 1, by decide⟩

/-- The last nanosecond before year 0. -/
def beforeYearZero : Instant := ⟨⟨-1, 12, 31, by decide⟩, 23, 59, 59, 999_999_999, by decide⟩

/-- The end of a leap day sorts before the next day, and a year with a sign is not read. -/
theorem timestamps_sort_leapDay :
    leapDayEnd.HasShortYear ∧ marchFirst.HasShortYear ∧
      (∃ x y, ofInstant? (some leapDayEnd) = some x ∧ ofInstant? (some marchFirst) = some y ∧
        Text.bytes x < Text.bytes y) ∧
      instant? 6 (ofInstant? (some beforeYearZero)) = .error (.unreadable 6 .timestamp) := by
  have hend : leapDayEnd.HasShortYear := by decide
  have hnext : marchFirst.HasShortYear := by decide
  have hearlier : leapDayEnd.IsEarlier marchFirst := by decide
  obtain ⟨hvalue, horder⟩ := timestamps_keep_value_and_order
  obtain ⟨x, y, hx, hy, hcompares⟩ := horder leapDayEnd marchFirst hend hnext
  refine ⟨hend, hnext, ⟨x, y, hx, hy, hcompares.lt_iff.2 hearlier⟩, ?_⟩
  rw [hvalue, if_neg (by decide)]

end Column

end OfflineChat
