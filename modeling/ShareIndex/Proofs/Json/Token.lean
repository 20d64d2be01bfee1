import ShareIndex.Json.Token
import ShareIndex.Json.Writer
import ShareIndex.Proofs.Text.Decimal

/-!
# ShareIndex.Proofs.Json.Token

What the writer puts down is one token again, whatever follows it.

* `readText_escape` — a quoted text ends at its closing quote, and its characters are those that were escaped.
* `Delimited`       — what may follow a numeral; it does not go on with it.
* `numeral?_render` — a numeral of 64 bits is an integer.
* `Lexeme`          — a text that is one token; `lexeme_quote` and `lexeme_render` are the tokens of the writer.
-/

namespace ShareIndex
namespace Json

/-! ### Texts -/

theorem ofDigits?_control : ∀ n < 32,
    Hexadecimal.ofDigits? ['0', '0', Hexadecimal.digitChar (n / 16), Hexadecimal.digitChar (n % 16)] = some n := by
  decide

theorem hexadecimal_character? (c : Char) : Hexadecimal.character? c.toNat = some c := by
  have hv : c.toNat.isValidChar := c.valid
  have hc := Char.ofNat_toNat c
  rw [Char.ofNat, dif_pos hv] at hc
  rw [Hexadecimal.character?, dif_pos hv, hc]

theorem numbered?_control {c : Char} (h : c.toNat < 32) (rest : List Char) :
    numbered? ('0' :: '0' :: Hexadecimal.digitChar (c.toNat / 16) :: Hexadecimal.digitChar (c.toNat % 16) :: rest) =
      some (c, rest) := by
  have hunit : unit? ('0' :: '0' :: Hexadecimal.digitChar (c.toNat / 16) :: Hexadecimal.digitChar (c.toNat % 16) ::
      rest) = some c.toNat := by
    rw [unit?, if_neg (by simp)]
    exact ofDigits?_control c.toNat h
  have hlow : isHighSurrogate c.toNat = false := by
    simp only [isHighSurrogate, Bool.and_eq_false_iff, decide_eq_false_iff_not]
    omega
  simp only [numbered?, hunit, hlow, hexadecimal_character?, Bool.false_eq_true, if_false]
  rfl

theorem character?_self {c : Char} (hb : c ≠ '\\') (hc : ¬ c.toNat < 32) (rest : List Char) :
    character? (c :: rest) = some (c, rest) := by
  unfold character?
  split
  · simp_all
  · simp_all
  · simp_all
  · rename_i heq
    obtain ⟨rfl, rfl⟩ := List.cons.inj heq
    rw [if_neg (not_or.mpr ⟨hb, hc⟩)]

theorem character?_escapeChar (c : Char) (rest : List Char) : character? (escapeChar c ++ rest) = some (c, rest) := by
  unfold escapeChar
  split_ifs with h1 h2 h3 h4 h5 h6 h7 h8
  · subst h1; rfl
  · subst h2; rfl
  · subst h3; rfl
  · subst h4; rfl
  · subst h5; rfl
  · subst h6; rfl
  · subst h7; rfl
  · exact numbered?_control h8 rest
  · exact character?_self h2 h8 rest

/-- No escaped character begins with a quote. -/
theorem head?_escapeChar (c : Char) (rest : List Char) : (escapeChar c ++ rest).head? ≠ some '"' := by
  unfold escapeChar
  split_ifs with h1 <;> simp_all

theorem readText_escapeChar (c : Char) (rest : List Char) :
    readText (escapeChar c ++ rest) = (readText rest).map fun (text, after) => (c :: text, after) := by
  rw [readText, if_neg (head?_escapeChar c rest)]
  split
  · rename_i h
    rw [character?_escapeChar] at h
    cases h
  · rename_i h
    rw [character?_escapeChar] at h
    cases h
    rfl

/-- A text is read up to its closing quote. -/
theorem readText_escape (cs rest : List Char) : readText (escape cs ++ '"' :: rest) = some (cs, rest) := by
  induction cs with
  | nil =>
    rw [readText]
    rfl
  | cons c cs ih =>
    have hcons : escape (c :: cs) ++ '"' :: rest = escapeChar c ++ (escape cs ++ '"' :: rest) := by
      simp [escape]
    rw [hcons, readText_escapeChar, ih]
    rfl

/-! ### Numbers -/

/-- A text that does not go on with a numeral. -/
def Delimited (rest : List Char) : Prop :=
  ∀ c, rest.head? = some c → Decimal.isDigit c = false ∧ c ≠ '.' ∧ c ≠ 'e' ∧ c ≠ 'E'

theorem delimited_cons {c : Char} (h : c ∈ [',', ':', ']', '}', '\n']) (rest : List Char) : Delimited (c :: rest) := by
  intro d hd
  obtain rfl := Option.some.inj hd
  simp only [List.mem_cons, List.not_mem_nil, or_false] at h
  rcases h with rfl | rfl | rfl | rfl | rfl <;> decide

theorem delimited_nil : Delimited [] := nofun

theorem takeWhile_digits {digits rest : List Char} (hd : ∀ c ∈ digits, Decimal.isDigit c = true) (hr : Delimited rest) :
    (digits ++ rest).takeWhile Decimal.isDigit = digits ∧ (digits ++ rest).dropWhile Decimal.isDigit = rest := by
  rw [List.takeWhile_append_of_pos hd, List.dropWhile_append_of_pos hd]
  cases rest with
  | nil => simp
  | cons c rest =>
    have hc := (hr c rfl).1
    simp [hc]

theorem someDigits?_digits (n : Nat) {rest : List Char} (hr : Delimited rest) :
    someDigits? (Decimal.digits n ++ rest) = some (Decimal.digits n, rest) := by
  have hdigits : ∀ c ∈ Decimal.digits n, Decimal.isDigit c = true := fun _ => Decimal.isDigit_of_mem_digits
  obtain ⟨htake, hdrop⟩ := takeWhile_digits hdigits hr
  have hne : (Decimal.digits n).isEmpty = false := List.isEmpty_eq_false_iff.mpr (Decimal.digits_ne_nil n)
  simp only [someDigits?, htake, hdrop, hne]
  rfl

theorem fraction?_delimited {rest : List Char} (hr : Delimited rest) : fraction? rest = some ([], rest) := by
  unfold fraction?
  split
  · exact absurd rfl (hr '.' rfl).2.1
  · rfl

theorem exponent?_delimited {rest : List Char} (hr : Delimited rest) : exponent? rest = some ([], rest) := by
  cases rest with
  | nil => rfl
  | cons c rest =>
    obtain ⟨-, -, he, hE⟩ := hr c rfl
    simp only [exponent?, he, hE, or_self, if_false]

theorem isDigit_head (n : Nat) : ∃ c cs, Decimal.digits n = c :: cs ∧ Decimal.isDigit c = true := by
  cases hd : Decimal.digits n with
  | nil => exact absurd hd (Decimal.digits_ne_nil n)
  | cons c cs => exact ⟨c, cs, rfl, Decimal.isDigit_of_mem_digits (hd ▸ List.mem_cons_self)⟩

/-- Only zero is written with a leading zero. -/
theorem head?_digits {n : Nat} (h : 0 < n) : (Decimal.digits n).head? ≠ some '0' := by
  induction n using Decimal.digits.induct with
  | case1 n hn =>
    rw [Decimal.digits_of_lt hn]
    revert h
    exact (by decide : ∀ n < 10, 0 < n → [Decimal.digitChar n].head? ≠ some '0') n hn
  | case2 n hn ih =>
    obtain ⟨c, cs, hd, -⟩ := isDigit_head (n / 10)
    rw [Decimal.digits_of_le (Nat.not_lt.mp hn), hd]
    rw [hd] at ih
    exact ih (by omega)

theorem single_zero (n : Nat) : ¬ ((Decimal.digits n).head? = some '0' ∧ (Decimal.digits n).length ≠ 1) := by
  rintro ⟨hh, hl⟩
  rcases Nat.eq_zero_or_pos n with rfl | hn
  · exact hl (by rw [Decimal.digits_of_lt (by decide)]; rfl)
  · exact head?_digits hn hh

/-- The integers that are read as such. -/
def Numeric (n : Int) : Prop := Decimal.minimum ≤ n ∧ n < Decimal.wordLimit

theorem numeric_of_inRange {n : Int} (h : Decimal.InRange n) : Numeric n :=
  ⟨h.1, by have := h.2; simp only [Decimal.maximum, Decimal.wordLimit] at *; omega⟩

theorem numeral?_render {n : Int} (h : Numeric n) {rest : List Char} (hr : Delimited rest) :
    numeral? (Decimal.render n ++ rest) = some (.integer n, rest) := by
  cases n with
  | ofNat n =>
    obtain ⟨c, cs, hd, hc⟩ := isDigit_head n
    have hsign : ((Decimal.digits n ++ rest).head? == some '-') = false := by
      rw [hd]
      simp only [List.cons_append, List.head?_cons, beq_eq_false_iff_ne]
      rintro ⟨rfl⟩
      cases hc
    have hlt : n < Decimal.wordLimit := Int.ofNat_lt.mp h.2
    simp only [Decimal.render, numeral?, hsign, Bool.false_eq_true, if_false, someDigits?_digits n hr,
      if_neg (single_zero n), fraction?_delimited hr, exponent?_delimited hr, numberOf?, Decimal.ofDigits_digits]
    simp [hlt]
  | negSucc n =>
    have hmin : Decimal.minimum ≤ -((n + 1 : Nat) : Int) := h.1
    simp only [Decimal.render, numeral?, List.cons_append, List.head?_cons, BEq.rfl, if_true, List.tail_cons,
      someDigits?_digits (n + 1) hr, if_neg (single_zero (n + 1)), fraction?_delimited hr, exponent?_delimited hr,
      numberOf?, Decimal.ofDigits_digits]
    rw [decide_eq_true hmin]
    rfl

/-! ### Tokens -/

/-- The text is one token, when `rest` follows it. -/
structure Lexeme (text : List Char) (token : Token) (rest : List Char) : Prop where
  solid : ∃ c cs, text = c :: cs ∧ isBlank c = false
  token : token? (text ++ rest) = some (token, rest)

theorem lexeme_quote (s : String) (rest : List Char) : Lexeme (quote s) (.scalar (.text s)) rest where
  solid := ⟨'"', escape s.toList ++ ['"'], rfl, rfl⟩
  token := by
    have hquote : quote s ++ rest = '"' :: (escape s.toList ++ '"' :: rest) := by simp [quote]
    rw [hquote, token?, readText_escape]
    simp

/-- What begins with a digit or with a minus is a numeral. -/
theorem token?_numeral {c : Char} (h : Decimal.isDigit c = true ∨ c = '-') (cs : List Char) :
    token? (c :: cs) = (numeral? (c :: cs)).map fun (value, rest) => (.scalar value, rest) := by
  unfold token?
  split <;> simp_all [Decimal.isDigit]

theorem solid_numeral {c : Char} (h : Decimal.isDigit c = true ∨ c = '-') : isBlank c = false := by
  rcases h with h | rfl
  · simp only [isBlank, Bool.or_eq_false_iff, beq_eq_false_iff_ne]
    refine ⟨⟨⟨?_, ?_⟩, ?_⟩, ?_⟩ <;>
    · rintro rfl
      cases h
  · rfl

theorem head_render (n : Int) : ∃ c cs, Decimal.render n = c :: cs ∧ (Decimal.isDigit c = true ∨ c = '-') := by
  cases n with
  | ofNat n =>
    obtain ⟨c, cs, hd, hc⟩ := isDigit_head n
    exact ⟨c, cs, hd, .inl hc⟩
  | negSucc n => exact ⟨'-', _, rfl, .inr rfl⟩

theorem lexeme_render {n : Int} (h : Numeric n) {rest : List Char} (hr : Delimited rest) :
    Lexeme (Decimal.render n) (.scalar (.integer n)) rest := by
  obtain ⟨c, cs, hd, hc⟩ := head_render n
  refine ⟨⟨c, cs, hd, solid_numeral hc⟩, ?_⟩
  have htoken := token?_numeral hc (cs ++ rest)
  rw [← List.cons_append, ← hd, numeral?_render h hr] at htoken
  exact htoken

end Json
end ShareIndex
