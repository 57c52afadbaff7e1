/-! # Blank characters

Which characters count as blank space in a loosely written timestamp: the characters with the
Unicode property `White_Space`. Main definitions: `Text.isBlank`, `Text.trimStart`. Main
statements: every ASCII blank is one (`isBlank_of_isWhitespace`), and trimming leaves a text that
does not start with one (`trimStart_eq_self`, `head?_trimStart`). -/

set_option autoImplicit false

namespace OfflineChat.Text

/-- A character is blank when it has the property `White_Space`. -/
def isBlank (c : Char) : Bool :=
  let n := c.toNat
  (9 ≤ n && n ≤ 13) || n == 0x20 || n == 0x85 || n == 0xA0 || n == 0x1680 ||
    (0x2000 ≤ n && n ≤ 0x200A) || n == 0x2028 || n == 0x2029 || n == 0x202F || n == 0x205F ||
    n == 0x3000

theorem isBlank_of_isWhitespace {c : Char} (h : c.isWhitespace = true) : isBlank c = true := by
  simp only [Char.isWhitespace, Bool.or_eq_true, decide_eq_true_eq] at h
  rcases h with ((h | h) | h) | h <;> subst h <;> decide

/-- The text without the blank characters it starts with. -/
def trimStart (cs : List Char) : List Char := cs.dropWhile isBlank

@[simp] theorem trimStart_nil : trimStart [] = [] := rfl

theorem trimStart_cons (c : Char) (cs : List Char) :
    trimStart (c :: cs) = if isBlank c then trimStart cs else c :: cs := by
  unfold trimStart
  by_cases h : isBlank c <;> simp [List.dropWhile, h]

theorem trimStart_eq_self {c : Char} (cs : List Char) (h : isBlank c = false) :
    trimStart (c :: cs) = c :: cs := by
  simp [trimStart_cons, h]

theorem head?_trimStart {cs : List Char} {c : Char} (h : (trimStart cs).head? = some c) :
    isBlank c = false := by
  induction cs with
  | nil => simp at h
  | cons d ds ih =>
      rw [trimStart_cons] at h
      by_cases hd : isBlank d
      · exact ih (by simpa [hd] using h)
      · simp only [hd, Bool.false_eq_true, if_false, List.head?_cons, Option.some.injEq] at h
        simpa [← h] using hd

end OfflineChat.Text
