/-!
# ShareIndex.Text.Decimal

Integers in decimal notation.

* `digits`, `ofDigits` — the digits of a natural number, and the number of a string of digits.
* `render`             — the shortest notation of an integer: no `+`, no leading zero.
* `parse`              — reads an optional sign and at least one digit, and nothing else.
* `InRange`            — the integers of 64 bits, which are all that a counter can hold.
-/

namespace ShareIndex
namespace Decimal

def digitChar (n : Nat) : Char := Char.ofNat ('0'.toNat + n)

def isDigit (c : Char) : Bool := '0' ≤ c && c ≤ '9'

def digitValue (c : Char) : Nat := c.toNat - '0'.toNat

/-- The digits of a natural number, without leading zeros. -/
def digits (n : Nat) : List Char :=
  if _ : n < 10 then [digitChar n] else digits (n / 10) ++ [digitChar (n % 10)]
termination_by n
decreasing_by omega

def ofDigits (cs : List Char) : Nat := cs.foldl (fun n c => 10 * n + digitValue c) 0

/-- Reads a non-empty string of digits. -/
def parseNat (cs : List Char) : Option Nat :=
  if cs ≠ [] ∧ cs.all isDigit then some (ofDigits cs) else none

def render : Int → List Char
  | .ofNat n => digits n
  | .negSucc n => '-' :: digits (n + 1)

/-- Reads an integer with an optional sign. -/
def parse : List Char → Option Int
  | '+' :: cs => (parseNat cs).map Int.ofNat
  | '-' :: cs => (parseNat cs).map fun n => -Int.ofNat n
  | cs => (parseNat cs).map Int.ofNat

def minimum : Int := -9223372036854775808

def maximum : Int := 9223372036854775807

/-- The first natural number that does not fit into a word of 64 bits. -/
def wordLimit : Nat := 18446744073709551616

/-- The integers that a signed word of 64 bits can hold. -/
def InRange (n : Int) : Prop := minimum ≤ n ∧ n ≤ maximum

instance (n : Int) : Decidable (InRange n) := inferInstanceAs (Decidable (_ ∧ _))

/-- Reads an integer of 64 bits. -/
def parseWord (s : String) : Option Int :=
  match parse s.toList with
  | some n => if InRange n then some n else none
  | none => none

def renderWord (n : Int) : String := String.ofList (render n)

end Decimal
end ShareIndex
