import ShareIndex.Proofs.Text.Decimal
import Mathlib.Data.List.Induction
import Mathlib.Data.Nat.Digits.Defs

/-!
# ShareIndex.Proofs.Text.Numeral

The texts that denote integers.

* `Numeral`           — an optional sign, at least one digit, and nothing else, with the integer that is denoted.
* `parse_eq_some_iff` — these are the texts that are read.
* `Canonical`         — the text of an integer that has nothing to spare; `canonical_render` says that it is written.
-/

namespace ShareIndex
namespace Decimal

/-- The number that digits denote; the last digit counts one. -/
def valueOf (digits : List Char) : Nat := Nat.ofDigits 10 (digits.reverse.map digitValue)

inductive Numeral : List Char → Int → Prop where
  | unsigned {digits : List Char} : digits ≠ [] → (∀ c ∈ digits, c.isDigit = true) → Numeral digits (valueOf digits)
  | plus {digits : List Char} : digits ≠ [] → (∀ c ∈ digits, c.isDigit = true) →
    Numeral ('+' :: digits) (valueOf digits)
  | minus {digits : List Char} : digits ≠ [] → (∀ c ∈ digits, c.isDigit = true) →
    Numeral ('-' :: digits) (-valueOf digits)

variable {cs : List Char} {n m : Int}

theorem ofDigits_eq (digits : List Char) : ofDigits digits = valueOf digits := by
  induction digits using List.reverseRecOn with
  | nil => rfl
  | append_singleton digits c ih =>
    rw [ofDigits_append, ih, valueOf, valueOf, List.reverse_append, List.reverse_singleton, List.singleton_append,
      List.map_cons, Nat.ofDigits_cons, Nat.add_comm]

theorem parseNat_eq_some_iff {digits : List Char} {k : Nat} :
    parseNat digits = some k ↔ digits ≠ [] ∧ (∀ c ∈ digits, c.isDigit = true) ∧ k = valueOf digits := by
  rw [parseNat, Option.ite_none_right_eq_some, Option.some.injEq, ofDigits_eq, List.all_eq_true, and_assoc, eq_comm]
  rfl

theorem parse_eq_some_iff : parse cs = some n ↔ Numeral cs n := by
  constructor
  · intro h
    unfold parse at h
    split at h <;>
    · obtain ⟨k, hk, rfl⟩ := Option.map_eq_some_iff.mp h
      obtain ⟨hne, hdigits, rfl⟩ := parseNat_eq_some_iff.mp hk
      constructor <;> assumption
  · intro h
    cases h with
    | unsigned hne hdigits =>
      rw [parse_unsigned hdigits, parseNat_eq_some_iff.mpr ⟨hne, hdigits, rfl⟩]
      rfl
    | plus hne hdigits =>
      rw [parse, parseNat_eq_some_iff.mpr ⟨hne, hdigits, rfl⟩]
      rfl
    | minus hne hdigits =>
      rw [parse, parseNat_eq_some_iff.mpr ⟨hne, hdigits, rfl⟩]
      rfl

/-- A text denotes one integer at most. -/
theorem Numeral.unique (hn : Numeral cs n) (hm : Numeral cs m) : n = m := by
  rw [← parse_eq_some_iff] at hn hm
  exact Option.some.inj (hn.symm.trans hm)

theorem parseWord_eq_some_iff {text : String} : parseWord text = some n ↔ Numeral text.toList n ∧ InRange n := by
  rw [← parse_eq_some_iff, parseWord]
  cases parse text.toList with
  | none => simp
  | some k =>
    simp only [Option.ite_none_right_eq_some, Option.some.injEq]
    constructor
    · rintro ⟨hr, rfl⟩
      exact ⟨rfl, hr⟩
    · rintro ⟨rfl, hr⟩
      exact ⟨hr, rfl⟩

/-! ### Canonical texts -/

/-- There is no sign but that of a negative integer, and no zero but the integer itself before other digits. -/
structure Canonical (cs : List Char) (n : Int) : Prop where
  numeral : Numeral cs n
  noPlus : ∀ rest, cs ≠ '+' :: rest
  noZero : ∀ rest, cs = '0' :: rest → rest = []
  noMinusZero : ∀ rest, cs ≠ '-' :: '0' :: rest

theorem digits_of_zero_cons {k : Nat} {rest : List Char} (h : digits k = '0' :: rest) : k = 0 ∧ rest = [] := by
  induction k using digits.induct generalizing rest with
  | case1 k hk =>
    have hvalue := ofDigits_digits k
    rw [digits_of_lt hk] at h hvalue
    obtain ⟨hzero, rfl⟩ := List.cons.inj h
    rw [hzero] at hvalue
    exact ⟨hvalue.symm, rfl⟩
  | case2 k hk ih =>
    rw [digits_of_le (Nat.not_lt.mp hk)] at h
    obtain ⟨first, others, hcons⟩ := List.exists_cons_of_ne_nil (digits_ne_nil (k / 10))
    rw [hcons, List.cons_append] at h
    obtain ⟨rfl, -⟩ := List.cons.inj h
    obtain ⟨hzero, -⟩ := ih hcons
    omega

/-- An integer is written in its canonical text. -/
theorem canonical_render (n : Int) : Canonical (render n) n := by
  have hnumeral := parse_eq_some_iff.mp (parse_render n)
  cases n with
  | ofNat k =>
    have hdigits : ∀ c ∈ digits k, isDigit c = true := fun _ => isDigit_of_mem_digits
    refine ⟨hnumeral, fun rest h => ?_, fun rest h => (digits_of_zero_cons h).2, fun rest h => ?_⟩
    · have hplus := hdigits '+' (by rw [show digits k = _ from h]; exact List.mem_cons_self)
      exact absurd hplus (by decide)
    · have hminus := hdigits '-' (by rw [show digits k = _ from h]; exact List.mem_cons_self)
      exact absurd hminus (by decide)
  | negSucc k =>
    have hrender : render (.negSucc k) = '-' :: digits (k + 1) := rfl
    refine ⟨hnumeral, fun rest h => ?_, fun rest h => ?_, fun rest h => ?_⟩
    · rw [hrender] at h
      exact absurd (List.cons.inj h).1 (by decide)
    · rw [hrender] at h
      exact absurd (List.cons.inj h).1 (by decide)
    · rw [hrender] at h
      exact absurd (digits_of_zero_cons (List.cons.inj h).2).1 (Nat.succ_ne_zero k)

end Decimal
end ShareIndex
