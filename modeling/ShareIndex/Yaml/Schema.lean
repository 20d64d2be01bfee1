import ShareIndex.Text.Binary64
import ShareIndex.Text.Hexadecimal
import ShareIndex.Yaml.Node

/-!
# ShareIndex.Yaml.Schema

What the scalars of a document stand for.

* `isNull`, `truth?`, `integer?`, `isNumber` — the written forms.
* `text?`                                   — the text of a node; any scalar has one.
-/

namespace ShareIndex
namespace Yaml

def isNull (text : String) : Bool := text == "null" || text == "Null" || text == "NULL" || text == "~"

def truth? (text : String) : Option Bool :=
  if text = "true" ∨ text = "True" ∨ text = "TRUE" then some true
  else if text = "false" ∨ text = "False" ∨ text = "FALSE" then some false
  else none

def isOctal (c : Char) : Bool := '0' ≤ c && c ≤ '7'

def isBinary (c : Char) : Bool := c == '0' || c == '1'

/-- The number of a string of digits in a base, if all are digits of it and there is one. -/
def digitsIn? (base : Nat) (isDigit : Char → Bool) (cs : List Char) : Option Nat :=
  if cs.isEmpty || !cs.all isDigit then none
  else some (cs.foldl (fun n c => base * n + (Hexadecimal.digitValue? c).getD 0) 0)

/-- A natural number with the mark of its base, or in decimal notation without leading zeros. -/
def magnitude? : List Char → Option Nat
  | '0' :: 'x' :: cs => digitsIn? 16 (fun c => (Hexadecimal.digitValue? c).isSome) cs
  | '0' :: 'o' :: cs => digitsIn? 8 isOctal cs
  | '0' :: 'b' :: cs => digitsIn? 2 isBinary cs
  | cs => if cs.head? = some '0' ∧ cs.length ≠ 1 then none else digitsIn? 10 Decimal.isDigit cs

def integer? : List Char → Option Int
  | '+' :: cs => (magnitude? cs).map Int.ofNat
  | '-' :: cs => (magnitude? cs).map fun n => -Int.ofNat n
  | cs => (magnitude? cs).map Int.ofNat

def isInfinity (cs : List Char) : Bool :=
  cs == ".inf".toList || cs == ".Inf".toList || cs == ".INF".toList

def isUndefined (cs : List Char) : Bool := cs == ".nan".toList || cs == ".NaN".toList || cs == ".NAN".toList

/-- Whether digits with a leading zero stand alone, which is no number. -/
def isPaddedNumeral (cs : List Char) : Bool :=
  let digits := match cs with
    | '+' :: cs | '-' :: cs => cs
    | cs => cs
  digits.head? == some '0' && digits.length != 1 && digits.all Decimal.isDigit

/-- Whether a text is a number; a numeral that is too large is none. -/
def isNumber (cs : List Char) : Bool :=
  let (negative, digits) := match cs with
    | '+' :: cs => (false, cs)
    | '-' :: cs => (true, cs)
    | cs => (false, cs)
  isInfinity digits || isUndefined cs ||
    match Binary64.ofNumeral? negative digits with
    | some number => number.isFinite
    | none => false

namespace Document

/-- Any scalar is a text. -/
def text? (d : Document) (n : Node) : Option String := do
  match ← d.follow? n with
  | .scalar _ text _ => some text
  | _ => none

end Document
end Yaml
end ShareIndex
