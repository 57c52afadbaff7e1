import OfflineChat.Json.Token

/-! # Written tokens are scanned back

A text that is made of the texts of tokens, one after another, is scanned into these tokens. It may
hold every text and every integer of 64 bits, but two numbers must not touch, since their digits
would run together. Main definitions: `Token.IsExact`, for the tokens whose text determines them,
and `Token.Legible`. Main statements: `next?_text` for one token and `scan?_text` for a whole text.
-/

set_option autoImplicit false

namespace OfflineChat

/-! ## Digits -/

/-- No digit stands at the front. -/
def NoDigitAhead (cs : List Char) : Prop := ∀ c ∈ cs.head?, c.isDigit = false

namespace Literal

theorem digits_append {ds rest : List Char} (hd : ∀ c ∈ ds, c.isDigit = true)
    (hr : NoDigitAhead rest) : digits (ds ++ rest) = (ds.map fun c => c.toNat - 48, rest) := by
  have htake : rest.takeWhile Char.isDigit = [] := by
    cases rest with
    | nil => rfl
    | cons c cs => simp [hr c (by simp)]
  have hdrop : rest.dropWhile Char.isDigit = rest := by
    cases rest with
    | nil => rfl
    | cons c cs => simp [hr c (by simp)]
  rw [digits, List.takeWhile_append_of_pos hd, List.dropWhile_append_of_pos hd, htake, hdrop,
    List.append_nil]

/-- The digits that a number is written with. -/
def digitsOf (n : Nat) : List Nat := (Nat.toDigits 10 n).map fun c => c.toNat - 48

theorem digits_toDigits (n : Nat) {rest : List Char} (hr : NoDigitAhead rest) :
    digits (Nat.toDigits 10 n ++ rest) = (digitsOf n, rest) :=
  digits_append (fun _ hc => Nat.isDigit_of_mem_toDigits (by decide) (by decide) hc) hr

theorem value_digitsOf (n : Nat) : value (digitsOf n) = n := by
  have h : ∀ (cs : List Char) (start : Nat),
      (cs.map fun c => c.toNat - 48).foldl (fun n d => n * 10 + d) start
        = Nat.ofDigitChars 10 cs start := by
    intro cs start
    rw [List.foldl_map, Nat.ofDigitChars]
    congr 1
    funext m c
    rw [Nat.mul_comm]
    rfl
  rw [value, digitsOf, h, Nat.ofDigitChars_ten_toDigits]

theorem digitsOf_of_lt {n : Nat} (h : n < 10) : digitsOf n = [n] := by
  rw [digitsOf, Nat.toDigits_of_lt_base h]
  simp [Nat.toNat_digitChar_sub_48_of_lt_ten h]

theorem digitsOf_of_le {n : Nat} (h : 10 ≤ n) : digitsOf n = digitsOf (n / 10) ++ [n % 10] := by
  have hd : n % 10 < 10 := Nat.mod_lt n (by decide)
  rw [digitsOf, Nat.toDigits_of_base_le (by decide) h, List.map_append]
  simp [digitsOf, Nat.toNat_digitChar_sub_48_of_lt_ten hd]

/-- A positive number is written without a zero in front. -/
theorem exists_digitsOf_eq_cons {n : Nat} (h : 0 < n) : ∃ d ds, digitsOf n = (d + 1) :: ds := by
  induction n using Nat.strongRecOn with
  | ind n ih =>
      by_cases hn : n < 10
      · exact ⟨n - 1, [], by rw [digitsOf_of_lt hn]; congr 1; omega⟩
      · -- the first digit is that of the number without its last digit
        have hle : 10 ≤ n := by omega
        obtain ⟨d, ds, hds⟩ := ih (n / 10) (by omega) (by omega)
        exact ⟨d, ds ++ [n % 10], by rw [digitsOf_of_le hle, hds]; rfl⟩

/-- Digits only make a significand larger. -/
theorem le_foldl_digits (ds : List Nat) (start : Nat) :
    start ≤ ds.foldl (fun n d => n * 10 + d) start := by
  induction ds generalizing start with
  | nil => exact Nat.le_refl start
  | cons d ds ih =>
      calc start ≤ start * 10 + d := by omega
        _ ≤ _ := ih (start * 10 + d)

theorem absorb_of_le {ds : List Nat} {start : Nat}
    (h : ds.foldl (fun n d => n * 10 + d) start ≤ maxSignificand) :
    absorb start ds = (ds.foldl (fun n d => n * 10 + d) start, []) := by
  induction ds generalizing start with
  | nil => rfl
  | cons d ds ih =>
      have hle : start * 10 + d ≤ maxSignificand := Nat.le_trans (le_foldl_digits ds _) h
      rw [absorb, if_pos hle, ih h]
      rfl

theorem absorb_digitsOf {n : Nat} (h : n ≤ maxSignificand) : absorb 0 (digitsOf n) = (n, []) := by
  have hv : (digitsOf n).foldl (fun n d => n * 10 + d) 0 = n := value_digitsOf n
  rw [absorb_of_le (by rw [hv]; exact h), hv]

/-- An integer of 64 bits is read from its digits. -/
theorem number?_int {n : Int} (h : (Number.int n).Fits) :
    number? ⟨decide (n < 0), digitsOf n.natAbs, none, none⟩ = some (.int n) := by
  simp only [Number.Fits] at h
  -- all digits go into the significand, so that the number is not read as a double
  have hw : absorb 0 (digitsOf n.natAbs) = (n.natAbs, []) :=
    absorb_digitsOf (by simp only [maxSignificand]; omega)
  simp only [number?, hw, isWhole, Option.isNone_none, Bool.and_self, and_self, if_true,
    decide_eq_false_iff_not]
  by_cases hn : n < 0
  · have hr : 0 < n.natAbs ∧ n.natAbs ≤ 0x8000_0000_0000_0000 := by omega
    have hv : -(n.natAbs : Int) = n := by omega
    rw [if_neg (by simpa using hn), if_pos hr, hv]
  · have hv : (n.natAbs : Int) = n := by omega
    rw [if_pos hn, hv]

end Literal

namespace Token

/-! ## Numbers -/

/-- A character that could carry on a number. -/
def continuesNumber (c : Char) : Bool := c.isDigit || c == '.' || c == 'e' || c == 'E'

/-- Nothing at the front could carry on a number. -/
def NumberEnds (rest : List Char) : Prop := ∀ c ∈ rest.head?, continuesNumber c = false

theorem NumberEnds.noDigitAhead {rest : List Char} (h : NumberEnds rest) : NoDigitAhead rest := by
  intro c hc
  have := h c hc
  simp only [continuesNumber, Bool.or_eq_false_iff] at this
  exact this.1.1.1

theorem fraction?_of_numberEnds {rest : List Char} (h : NumberEnds rest) :
    fraction? rest = some (none, rest) := by
  unfold fraction?
  split
  · exact absurd (h '.' (by simp)) (by decide)
  · rfl

theorem power?_of_numberEnds {rest : List Char} (h : NumberEnds rest) :
    Literal.power? rest = some (none, rest) := by
  cases rest with
  | nil => rfl
  | cons c cs =>
      have hc := h c (by simp)
      simp only [continuesNumber, Bool.or_eq_false_iff, beq_eq_false_iff_ne] at hc
      rw [Literal.power?, if_neg (not_or.2 ⟨hc.1.2, hc.2⟩)]

theorem whole?_toDigits (n : Nat) {rest : List Char} (hr : NoDigitAhead rest) :
    whole? (Nat.toDigits 10 n ++ rest) = some (Literal.digitsOf n, rest) := by
  unfold whole?
  rw [Literal.digits_toDigits n hr]
  by_cases hn : n = 0
  · subst hn
    simp [Literal.digitsOf_of_lt]
  · obtain ⟨d, ds, hds⟩ := Literal.exists_digitsOf_eq_cons (Nat.pos_of_ne_zero hn)
    simp [hds]

theorem numeral?_int {n : Int} (h : (Number.int n).Fits) {rest : List Char}
    (hr : NumberEnds rest) :
    numeral? (decide (n < 0)) (Nat.toDigits 10 n.natAbs ++ rest)
      = some (.number (some (.int n)), rest) := by
  unfold numeral?
  rw [whole?_toDigits _ hr.noDigitAhead]
  simp only [Option.bind_eq_bind, Option.bind_some, fraction?_of_numberEnds hr,
    power?_of_numberEnds hr, Literal.number?_int h, Option.pure_def]

/-- Where no other token starts, a numeral does. -/
theorem next?_digit {c : Char} (h : c.isDigit = true) (cs : List Char) :
    next? (c :: cs) = numeral? false (c :: cs) := by
  -- no other token starts with a digit
  unfold next?
  split <;> simp_all

theorem exists_toDigits_eq_cons (n : Nat) :
    ∃ c cs, Nat.toDigits 10 n = c :: cs ∧ c.isDigit = true := by
  cases hd : Nat.toDigits 10 n with
  | nil => exact absurd hd Nat.toDigits_ne_nil
  | cons c cs =>
      have hc : c ∈ Nat.toDigits 10 n := hd ▸ List.mem_cons_self
      exact ⟨c, cs, rfl, Nat.isDigit_of_mem_toDigits (by decide) (by decide) hc⟩

theorem next?_intText {n : Int} (h : (Number.int n).Fits) {rest : List Char}
    (hr : NumberEnds rest) :
    next? (intText n ++ rest) = some (.number (some (.int n)), rest) := by
  have hnum := numeral?_int h hr
  unfold intText
  by_cases hn : n < 0
  · rw [if_pos hn, List.cons_append]
    simpa only [next?, hn, decide_true] using hnum
  · rw [if_neg hn]
    simp only [hn, decide_false] at hnum
    obtain ⟨c, cs, hcs, hc⟩ := exists_toDigits_eq_cons n.natAbs
    rw [hcs, List.cons_append] at hnum ⊢
    rw [next?_digit hc, hnum]

/-! ## Strings -/

/-- The piece that a character of a quoted text is read as. -/
def pieceOf (c : Char) : Piece :=
  if 0x20 ≤ c.toNat ∨ c.toNat ∈ [8, 9, 10, 12, 13] then .char c else .unit c.toNat

theorem hexUnit?_control :
    ∀ n < 0x20, hexUnit? '0' '0' (hexDigit (n / 16)) (hexDigit (n % 16)) = some n := by
  decide

theorem pieces?_short {e c : Char} (hu : e ≠ 'u') (h : shortEscape? e = some c)
    (done : List Piece) (rest : List Char) :
    pieces? done ('\\' :: e :: rest) = pieces? (.char c :: done) rest := by
  rw [pieces?.eq_def]
  split
  · next hq => exact absurd hq (by simp)
  · next hq => exact absurd hq (by simp)
  · next hq => exact absurd (List.cons.inj (List.cons.inj hq).2).1 hu
  · next hq =>
      obtain ⟨-, htail⟩ := List.cons.inj hq
      obtain ⟨rfl, rfl⟩ := List.cons.inj htail
      rw [h]
  · next hno hq =>
      obtain ⟨rfl, rfl⟩ := List.cons.inj hq
      exact absurd rfl (hno e rest rfl)

theorem pieces?_plain {c : Char} (hq : c ≠ '"') (hb : c ≠ '\\') (h : 0x20 ≤ c.toNat)
    (done : List Piece) (rest : List Char) :
    pieces? done (c :: rest) = pieces? (.char c :: done) rest := by
  have hs : ¬(c = '\\' ∨ c.toNat < 0x20) := not_or.2 ⟨hb, Nat.not_lt.2 h⟩
  rw [pieces?.eq_def]
  split
  · next he => exact absurd he (by simp)
  · next he => exact absurd (List.cons.inj he).1 hq
  · next he => exact absurd (List.cons.inj he).1 hb
  · next he => exact absurd (List.cons.inj he).1 hb
  · next he =>
      obtain ⟨rfl, rfl⟩ := List.cons.inj he
      rw [if_neg hs]

theorem pieces?_escaped (c : Char) (done : List Piece) (rest : List Char) :
    pieces? done (escaped c ++ rest) = pieces? (pieceOf c :: done) rest := by
  have hc : Char.ofNat c.toNat = c := Char.ofNat_toNat c
  unfold escaped
  split
  · next h => subst h; exact pieces?_short (by decide) rfl done rest
  split
  · next h => subst h; exact pieces?_short (by decide) rfl done rest
  split
  · next hq hb h =>
      rw [pieceOf, if_pos (.inl h)]
      exact pieces?_plain hq hb h done rest
  split
  · next h => rw [← hc, h]; exact pieces?_short (by decide) rfl done rest
  split
  · next h => rw [← hc, h]; exact pieces?_short (by decide) rfl done rest
  split
  · next h => subst h; exact pieces?_short (by decide) rfl done rest
  split
  · next h => subst h; exact pieces?_short (by decide) rfl done rest
  split
  · next h => subst h; exact pieces?_short (by decide) rfl done rest
  · next hq hb h8 hbs hff hn hr ht =>
      -- what is left are the control characters without a short escape
      have hunit := hexUnit?_control c.toNat (by omega)
      have hp : pieceOf c = .unit c.toNat := by
        have h9 : c.toNat ≠ 9 := fun h => ht (by rw [← hc, h])
        have h10 : c.toNat ≠ 10 := fun h => hn (by rw [← hc, h])
        have h13 : c.toNat ≠ 13 := fun h => hr (by rw [← hc, h])
        rw [pieceOf, if_neg (by simp only [List.mem_cons, List.not_mem_nil, or_false]; omega)]
      rw [hp]
      simp only [List.cons_append, List.nil_append, pieces?, hunit]

theorem pieces?_quoted (cs : List Char) (done : List Piece) (rest : List Char) :
    pieces? done (cs.flatMap escaped ++ '"' :: rest)
      = some ((cs.map pieceOf).reverse ++ done, rest) := by
  induction cs generalizing done with
  | nil => simp [pieces?]
  | cons c cs ih =>
      rw [List.flatMap_cons, List.append_assoc, pieces?_escaped, ih]
      simp

theorem joinPieces?_pieceOf (c : Char) (tail : List Char) (rest : List Piece) :
    joinPieces? tail (pieceOf c :: rest) = joinPieces? (c :: tail) rest := by
  unfold pieceOf
  split
  · rw [joinPieces?]
  · next h =>
      -- a control character is no half of a surrogate pair
      have h1 : ¬(0xDC00 ≤ c.toNat ∧ c.toNat ≤ 0xDFFF) := by omega
      have h2 : ¬(0xD800 ≤ c.toNat ∧ c.toNat ≤ 0xDBFF) := by omega
      rw [joinPieces?.eq_def]
      simp only [h1, h2, if_false, Char.ofNat_toNat]

theorem joinPieces?_map (cs tail : List Char) :
    joinPieces? tail (cs.map pieceOf) = some (cs.reverse ++ tail) := by
  induction cs generalizing tail with
  | nil => rw [List.map_nil, joinPieces?]; rfl
  | cons c cs ih =>
      rw [List.map_cons, joinPieces?_pieceOf, ih]
      simp

theorem next?_quoted (s : String) (rest : List Char) :
    next? (quoted s.toList ++ rest) = some (.string (some s), rest) := by
  have hjoin : joinPieces? [] (s.toList.map pieceOf).reverse = some s.toList := by
    rw [← List.map_reverse, joinPieces?_map]
    simp
  show string? (s.toList.flatMap escaped ++ ['"'] ++ rest) = _
  rw [string?, List.append_assoc, List.singleton_append, pieces?_quoted]
  simp [hjoin]

/-! ## Texts of tokens -/

/-- A number, whose text the next token must not carry on. -/
def isNumber : Token → Bool
  | .number _ => true
  | _ => false

/-- The text of the token says what the token is: it has a text, and its number is an integer of 64
bits. -/
def IsExact : Token → Prop
  | .number (some (.int n)) => (Number.int n).Fits
  | .number _ => False
  | .string s => s.isSome
  | _ => True

/-- All tokens are exact, and no two numbers touch. -/
def Legible : List Token → Prop
  | [] => True
  | t :: ts => t.IsExact ∧ (t.isNumber = true → ∀ u ∈ ts.head?, u.isNumber = false) ∧ Legible ts

theorem next?_text {t : Token} (ht : t.IsExact) {rest : List Char}
    (hr : t.isNumber = true → NumberEnds rest) : next? (t.text ++ rest) = some (t, rest) := by
  cases t with
  | number n =>
      cases n with
      | none => exact absurd ht id
      | some n =>
          cases n with
          | int n => exact next?_intText ht (hr rfl)
          | float bits => exact absurd ht id
  | string s =>
      cases s with
      | none => exact absurd ht (by simp [IsExact])
      | some s => exact next?_quoted s rest
  | bool b => cases b <;> rfl
  | beginObject | endObject | beginArray | endArray | colon | comma | null => rfl

theorem isSpace_of_isDigit {c : Char} (h : c.isDigit = true) : isSpace c = false := by
  cases hs : isSpace c with
  | false => rfl
  | true =>
      simp only [isSpace, Bool.or_eq_true, beq_iff_eq] at hs
      rcases hs with ((rfl | rfl) | rfl) | rfl <;> exact absurd h (by decide)

/-- A token starts with neither a space nor, unless it is a number, with what could carry one on. -/
theorem exists_text_eq_cons {t : Token} (ht : t.IsExact) :
    ∃ c cs, t.text = c :: cs ∧ isSpace c = false ∧
      (t.isNumber = false → continuesNumber c = false) := by
  cases t with
  | number n =>
      cases n with
      | none => exact absurd ht id
      | some n =>
          cases n with
          | float bits => exact absurd ht id
          | int n =>
              show ∃ c cs, intText n = c :: cs ∧ _
              unfold intText
              split
              · exact ⟨'-', _, rfl, rfl, by simp [isNumber]⟩
              · obtain ⟨c, cs, hcs, hc⟩ := exists_toDigits_eq_cons n.natAbs
                exact ⟨c, cs, hcs, isSpace_of_isDigit hc, by simp [isNumber]⟩
  | string s =>
      cases s with
      | none => exact absurd ht (by simp [IsExact])
      | some s => exact ⟨'"', _, rfl, rfl, fun _ => rfl⟩
  | bool b => cases b <;> exact ⟨_, _, rfl, rfl, fun _ => rfl⟩
  | beginObject | endObject | beginArray | endArray | colon | comma | null =>
      exact ⟨_, _, rfl, rfl, fun _ => rfl⟩

theorem numberEnds_flatMap {ts : List Token} (h : Legible ts)
    (hn : ∀ u ∈ ts.head?, u.isNumber = false) : NumberEnds (ts.flatMap text) := by
  cases ts with
  | nil => simp [NumberEnds]
  | cons t ts =>
      obtain ⟨c, cs, hc, -, hends⟩ := exists_text_eq_cons h.1
      have := hends (hn t (by simp))
      simpa [NumberEnds, hc] using this

theorem scanOnto?_text {ts : List Token} (h : Legible ts) {fuel : Nat} (hf : ts.length < fuel)
    (done : List Token) :
    scanOnto? fuel done (ts.flatMap text) = some (ts.reverse ++ done) := by
  induction ts generalizing fuel done with
  | nil =>
      cases fuel with
      | zero => exact absurd hf (by simp)
      | succ fuel => simp [scanOnto?]
  | cons t ts ih =>
      cases fuel with
      | zero => exact absurd hf (by simp)
      | succ fuel =>
          -- no space is skipped in front of the token, and what follows does not carry it on
          obtain ⟨ht, hnum, hts⟩ := h
          obtain ⟨c, cs, hc, hspace, -⟩ := exists_text_eq_cons ht
          have hnext := next?_text ht fun hn => numberEnds_flatMap hts (hnum hn)
          have hlen : ts.length < fuel := by simpa using hf
          rw [hc, List.cons_append] at hnext
          rw [List.flatMap_cons, hc, List.cons_append, scanOnto?]
          simp only [List.dropWhile_cons, hspace, Bool.false_eq_true, if_false, hnext]
          rw [ih hts hlen]
          simp

/-- **A legible list of tokens is scanned back from its text.** -/
theorem scan?_text {ts : List Token} (h : Legible ts) : scan? (ts.flatMap text) = some ts := by
  -- every token has a character at least, so that the fuel suffices
  have hlen : ∀ {ts : List Token}, Legible ts → ts.length ≤ (ts.flatMap text).length := by
    intro ts h
    induction ts with
    | nil => simp
    | cons t ts ih =>
        obtain ⟨c, cs, hc, -, -⟩ := exists_text_eq_cons h.1
        have := ih h.2.2
        simp only [List.flatMap_cons, hc, List.length_cons, List.length_append]
        omega
  rw [scan?, scanOnto?_text h (Nat.lt_succ_of_le (hlen h))]
  simp

end Token

end OfflineChat
