/-!
# ShareIndex.Text.Hexadecimal

Numbers in hexadecimal notation, and the characters that have them.

* `digitChar`, `digitValue?` — a digit, and what it stands for; letters of both cases are digits.
* `ofDigits?`                — the number of a string of digits.
* `character?`               — the character of a number, if it has one.
-/

namespace ShareIndex
namespace Hexadecimal

def digitChar (n : Nat) : Char := if n < 10 then Char.ofNat ('0'.toNat + n) else Char.ofNat ('a'.toNat + n - 10)

def digitValue? (c : Char) : Option Nat :=
  if '0' ≤ c ∧ c ≤ '9' then some (c.toNat - '0'.toNat)
  else if 'a' ≤ c ∧ c ≤ 'f' then some (c.toNat - 'a'.toNat + 10)
  else if 'A' ≤ c ∧ c ≤ 'F' then some (c.toNat - 'A'.toNat + 10)
  else none

def ofDigits? (cs : List Char) : Option Nat :=
  cs.foldlM (fun value c => (digitValue? c).map (16 * value + ·)) 0

def character? (n : Nat) : Option Char := if h : n.isValidChar then some (Char.ofNatAux n h) else none

end Hexadecimal
end ShareIndex
