import ShareIndex.Text.Decimal
import Mathlib.Tactic.Common

/-!
# ShareIndex.Proofs.Text.Decimal

Integers that are written and read back.

* `ofDigits_digits` — the digits of a number denote it.
* `parse_render`    — an integer is read as it was written.
* `parseWord_renderWord` — so is one of 64 bits, which is what a counter holds.
-/

namespace ShareIndex
namespace Decimal

theorem isDigit_digitChar : ∀ n < 10, isDigit (digitChar n) = true := by decide

theorem digitValue_digitChar : ∀ n < 10, digitValue (digitChar n) = n := by decide

theorem ofDigits_append (cs : List Char) (c : Char) : ofDigits (cs ++ [c]) = 10 * ofDigits cs + digitValue c := by
  rw [ofDigits, List.foldl_append]
  rfl

theorem digits_of_lt {n : Nat} (h : n < 10) : digits n = [digitChar n] := by
  rw [digits, dif_pos h]

theorem digits_of_le {n : Nat} (h : 10 ≤ n) : digits n = digits (n / 10) ++ [digitChar (n % 10)] := by
  rw [digits, dif_neg (Nat.not_lt.mpr h)]

theorem ofDigits_digits (n : Nat) : ofDigits (digits n) = n := by
  induction n using digits.induct with
  | case1 n h =>
    rw [digits_of_lt h]
    simp [ofDigits, digitValue_digitChar n h]
  | case2 n h ih =>
    have hmod : n % 10 < 10 := Nat.mod_lt _ (by decide)
    rw [digits_of_le (Nat.not_lt.mp h), ofDigits_append, ih, digitValue_digitChar _ hmod]
    omega

theorem digits_ne_nil (n : Nat) : digits n ≠ [] := by
  by_cases h : n < 10
  · simp [digits_of_lt h]
  · simp [digits_of_le (Nat.not_lt.mp h)]

theorem isDigit_of_mem_digits {n : Nat} {c : Char} (h : c ∈ digits n) : isDigit c = true := by
  induction n using digits.induct with
  | case1 n hn =>
    rw [digits_of_lt hn] at h
    obtain rfl := List.mem_singleton.mp h
    exact isDigit_digitChar n hn
  | case2 n hn ih =>
    rw [digits_of_le (Nat.not_lt.mp hn)] at h
    rcases List.mem_append.mp h with h | h
    · exact ih h
    · obtain rfl := List.mem_singleton.mp h
      exact isDigit_digitChar _ (Nat.mod_lt _ (by decide))

theorem parseNat_digits (n : Nat) : parseNat (digits n) = some n := by
  have hall : (digits n).all isDigit = true := List.all_eq_true.mpr fun _ => isDigit_of_mem_digits
  rw [parseNat, if_pos ⟨digits_ne_nil n, hall⟩, ofDigits_digits]

/-- A text that begins with a digit has no sign. -/
theorem parse_unsigned {cs : List Char} (h : ∀ c ∈ cs, isDigit c = true) :
    parse cs = (parseNat cs).map Int.ofNat := by
  unfold parse
  split
  · exact absurd (h '+' List.mem_cons_self) (by decide)
  · exact absurd (h '-' List.mem_cons_self) (by decide)
  · rfl

theorem parse_render (n : Int) : parse (render n) = some n := by
  cases n with
  | ofNat n =>
    have hdigits : ∀ c ∈ digits n, isDigit c = true := fun _ => isDigit_of_mem_digits
    rw [render, parse_unsigned hdigits, parseNat_digits]
    rfl
  | negSucc n =>
    rw [render, parse, parseNat_digits]
    rfl

theorem parseWord_renderWord {n : Int} (h : InRange n) : parseWord (renderWord n) = some n := by
  rw [parseWord, renderWord, String.toList_ofList, parse_render]
  exact if_pos h

theorem inRange_toInt (n : Int64) : InRange n.toInt := ⟨n.le_toInt, Int.le_of_lt_add_one n.toInt_lt⟩

theorem inRange_of_parseWord {text : String} {n : Int} (h : parseWord text = some n) : InRange n := by
  unfold parseWord at h
  split at h
  · split at h
    · cases h
      assumption
    · cases h
  · cases h

end Decimal
end ShareIndex
