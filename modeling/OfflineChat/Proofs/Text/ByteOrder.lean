/-! # The order of texts is the order of their bytes

Keys are compared character by character, tables order them byte by byte. Main definition:
`Text.bytes`, the bytes of a text in UTF-8. Main statement: both orders are the same
(`lt_iff_bytes_lt`), because UTF-8 gives the greater of two characters the greater bytes
(`encode_append_lt`). -/

set_option autoImplicit false

namespace OfflineChat.Text

/-- The bytes of a text in UTF-8. -/
def bytes (s : String) : List UInt8 := s.toByteArray.data.toList

theorem bytes_eq_flatMap (s : String) : bytes s = s.toList.flatMap String.utf8EncodeChar := by
  rw [bytes, ← String.utf8Encode_toList, List.utf8Encode, List.data_toByteArray]

/-! ## One character -/

theorem cons_ofNat_lt_iff {m n : Nat} (hm : m < 256) (hn : n < 256) (xs ys : List UInt8) :
    UInt8.ofNat m :: xs < UInt8.ofNat n :: ys ↔ m < n ∨ m = n ∧ xs < ys := by
  rw [List.cons_lt_cons_iff, UInt8.lt_iff_toNat_lt, ← UInt8.toNat_inj, UInt8.toNat_ofNat',
    UInt8.toNat_ofNat', Nat.mod_eq_of_lt hm, Nat.mod_eq_of_lt hn]

theorem toNat_le_of_char (c : Char) : c.val.toNat ≤ 0x10FFFF := by
  have hc := c.valid
  simp only [UInt32.isValidChar, Nat.isValidChar] at hc
  omega

/-- The bytes of the smaller character come first, whatever follows either of them. -/
theorem encode_append_lt {c d : Char} (h : c < d) (xs ys : List UInt8) :
    String.utf8EncodeChar c ++ xs < String.utf8EncodeChar d ++ ys := by
  have hcd : c.val.toNat < d.val.toNat := h
  have hd := toNat_le_of_char d
  generalize hm : c.val.toNat = m at hcd
  generalize hn : d.val.toNat = n at hcd hd
  -- the groups of six bits that the bytes hold, taken from the same number
  have m1 : m / 64 / 64 = m / 4096 := by omega
  have m2 : m / 4096 / 64 = m / 262144 := by omega
  have n1 : n / 64 / 64 = n / 4096 := by omega
  have n2 : n / 4096 / 64 = n / 262144 := by omega
  have m3 : m / 262144 % 8 = m / 262144 := by omega
  have n3 : n / 262144 % 8 = n / 262144 := by omega
  simp only [String.utf8EncodeChar, hm, hn]
  split <;> split <;> (repeat' split) <;>
    simp only [List.cons_append, List.nil_append] <;>
    repeat rw [cons_ofNat_lt_iff (by omega) (by omega)]
  all_goals omega

/-! ## Whole texts -/

theorem flatMap_encode_lt {cs ds : List Char} (h : cs < ds) :
    cs.flatMap String.utf8EncodeChar < ds.flatMap String.utf8EncodeChar := by
  induction h with
  | nil =>
      next d ds =>
      rw [List.flatMap_nil, List.flatMap_cons]
      cases he : String.utf8EncodeChar d with
      | nil => exact absurd he String.utf8EncodeChar_ne_nil
      | cons b bs => exact List.nil_lt_cons b _
  | rel hcd =>
      rw [List.flatMap_cons, List.flatMap_cons]
      exact encode_append_lt hcd _ _
  | cons _ ih =>
      rw [List.flatMap_cons, List.flatMap_cons]
      exact List.append_left_lt ih

/-- **Texts are ordered as their bytes are.** -/
theorem lt_iff_bytes_lt {s t : String} : s < t ↔ bytes s < bytes t := by
  rw [bytes_eq_flatMap, bytes_eq_flatMap]
  constructor
  · exact fun h => flatMap_encode_lt h
  · intro h
    by_cases hst : s < t
    · exact hst
    · -- otherwise the texts are equal or the other way round, and so are their bytes
      rcases List.le_iff_lt_or_eq.1 (String.not_lt.1 hst) with hts | hts
      · exact absurd (flatMap_encode_lt hts) (List.lt_asymm h)
      · exact absurd (hts ▸ h) (List.lt_irrefl _)

end OfflineChat.Text
