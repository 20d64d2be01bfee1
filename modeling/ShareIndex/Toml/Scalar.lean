import ShareIndex.Datum
import ShareIndex.Text.Binary64
import ShareIndex.Text.Hexadecimal

/-!
# ShareIndex.Toml.Scalar

Values that are neither texts nor made of other values.

* `integer?` — integers of 64 bits in four bases.
* `isFloat`  — numbers with a fraction or an exponent.
* `isMoment` — dates, times, and both together.
* `scalar?`  — what such a value stands for.
-/

namespace ShareIndex
namespace Toml

/-! ### Numbers -/

/-- Digits without the underscores that may stand between two of them. -/
def ungrouped? (isDigit : Char → Bool) : List Char → Option (List Char)
  | [] => none
  | [c] => if isDigit c then some [c] else none
  | c :: '_' :: rest => if isDigit c then (ungrouped? isDigit rest).map (c :: ·) else none
  | c :: rest => if isDigit c then (ungrouped? isDigit rest).map (c :: ·) else none

/-- Decimal digits without leading zeros. -/
def decimal? (cs : List Char) : Option (List Char) :=
  match ungrouped? Decimal.isDigit cs with
  | some digits => if digits.head? = some '0' ∧ digits.length ≠ 1 then none else some digits
  | none => none

def numberIn? (base : Nat) (isDigit : Char → Bool) (cs : List Char) : Option Int :=
  (ungrouped? isDigit cs).map fun digits =>
    digits.foldl (fun (n : Int) c => base * n + (Hexadecimal.digitValue? c).getD 0) 0

def isHexadecimal (c : Char) : Bool := (Hexadecimal.digitValue? c).isSome

def unbounded? : List Char → Option Int
  | '0' :: 'x' :: cs => numberIn? 16 isHexadecimal cs
  | '0' :: 'o' :: cs => numberIn? 8 (fun c => '0' ≤ c && c ≤ '7') cs
  | '0' :: 'b' :: cs => numberIn? 2 (fun c => c == '0' || c == '1') cs
  | '+' :: cs => (decimal? cs).map fun digits => Decimal.ofDigits digits
  | '-' :: cs => (decimal? cs).map fun digits => -(Decimal.ofDigits digits : Int)
  | cs => (decimal? cs).map fun digits => Decimal.ofDigits digits

def integer? (cs : List Char) : Option Int :=
  match unbounded? cs with
  | some n => if Decimal.InRange n then some n else none
  | none => none

def isExponentMark (c : Char) : Bool := c == 'e' || c == 'E'

/-- The digits of an exponent, after its mark and with its sign. -/
def exponent? : List Char → Option (List Char)
  | '+' :: cs => ungrouped? Decimal.isDigit cs
  | '-' :: cs => (ungrouped? Decimal.isDigit cs).map ('-' :: ·)
  | cs => ungrouped? Decimal.isDigit cs

/-- The numeral of a number without a sign; it has a fraction or an exponent. -/
def floatNumeral? (cs : List Char) : Option (List Char) := do
  let mantissa := cs.takeWhile fun c => !isExponentMark c
  let whole := mantissa.takeWhile (· != '.')
  let fraction := mantissa.drop whole.length
  let digits ← decimal? whole
  let fraction ← match fraction with
    | [] => some []
    | _ :: cs => (ungrouped? Decimal.isDigit cs).map ('.' :: ·)
  let exponent ← match cs.drop mantissa.length with
    | [] => some []
    | _ :: cs => (exponent? cs).map ('e' :: ·)
  if fraction.isEmpty && exponent.isEmpty then none else return digits ++ fraction ++ exponent

/-- Whether a text is a number that is no integer; only below is it not bounded. -/
def isFloat (cs : List Char) : Bool :=
  let negative := cs.head? == some '-'
  let digits := if negative || cs.head? == some '+' then cs.tail else cs
  digits == "inf".toList || digits == "nan".toList ||
    match (floatNumeral? digits).bind (Binary64.ofNumeral? negative) with
    | some number => negative || number.isFinite
    | none => false

/-! ### Dates and times -/

/-- The number of exactly `n` digits at the start of a text, and what follows them. -/
def digits? (n : Nat) (cs : List Char) : Option (Nat × List Char) :=
  let digits := cs.take n
  if digits.length = n ∧ digits.all Decimal.isDigit then some (Decimal.ofDigits digits, cs.drop n) else none

def after? (c : Char) : List Char → Option (List Char)
  | d :: cs => if d = c then some cs else none
  | [] => none

def isLeapYear (year : Nat) : Bool := year % 4 == 0 && (year % 100 != 0 || year % 400 == 0)

def daysOf (year month : Nat) : Nat :=
  if month = 2 then (if isLeapYear year then 29 else 28)
  else if month = 4 ∨ month = 6 ∨ month = 9 ∨ month = 11 then 30
  else 31

/-- What follows a date. -/
def date? (cs : List Char) : Option (List Char) := do
  let (year, cs) ← digits? 4 cs
  let (month, cs) ← digits? 2 (← after? '-' cs)
  let (day, cs) ← digits? 2 (← after? '-' cs)
  if 1 ≤ month ∧ month ≤ 12 ∧ 1 ≤ day ∧ day ≤ daysOf year month then some cs else none

/-- What follows hours and minutes. -/
def minutes? (cs : List Char) : Option (List Char) := do
  let (hour, cs) ← digits? 2 cs
  let (minute, cs) ← digits? 2 (← after? ':' cs)
  if hour ≤ 23 ∧ minute ≤ 59 then some cs else none

/-- What follows a time; a minute may have a leap second. -/
def time? (cs : List Char) : Option (List Char) := do
  let (second, cs) ← digits? 2 (← after? ':' (← minutes? cs))
  if 60 < second then none
  else
    match cs with
    | '.' :: rest => if (rest.takeWhile Decimal.isDigit).isEmpty then none else some (rest.dropWhile Decimal.isDigit)
    | cs => some cs

/-- Whether a text is the distance from universal time, which may be missing. -/
def isOffset : List Char → Bool
  | [] => true
  | ['Z'] => true
  | ['z'] => true
  | '+' :: cs => minutes? cs == some []
  | '-' :: cs => minutes? cs == some []
  | _ => false

def isTimeWithOffset (cs : List Char) : Bool := ((time? cs).map isOffset).getD false

def isTimeMark (c : Char) : Bool := c == 'T' || c == 't' || c == ' '

def isMoment (cs : List Char) : Bool :=
  match date? cs with
  | some [] => true
  | some (c :: rest) => isTimeMark c && isTimeWithOffset rest
  | none => time? cs == some []

/-! ### Scalars -/

/-- Whether a character ends a scalar. -/
def endsScalar (c : Char) : Bool :=
  c == ' ' || c == '\t' || c == '\n' || c == '\r' || c == ',' || c == ']' || c == '}' || c == '#'

/-- A date or a time is a table with its written form. -/
def scalarOf? (cs : List Char) : Option Datum :=
  if cs = "true".toList then some (.truth true)
  else if cs = "false".toList then some (.truth false)
  else
    match integer? cs with
    | some n => some (.integer n)
    | none =>
      if isFloat cs then some (.number (String.ofList cs))
      else if isMoment cs then some (.table [("moment", .text (String.ofList cs))])
      else none

/-- The scalar at the start of a text, and what follows it; a date may be divided from its time by a space. -/
def scalar? (cs : List Char) : Option (Datum × List Char) :=
  let word := cs.takeWhile fun c => !endsScalar c
  let rest := cs.drop word.length
  match date? word, rest with
  | some [], ' ' :: more =>
    let time := more.takeWhile fun c => !endsScalar c
    if isTimeWithOffset time then (scalarOf? (word ++ ' ' :: time)).map (·, more.drop time.length)
    else (scalarOf? word).map (·, rest)
  | _, _ => (scalarOf? word).map (·, rest)

end Toml
end ShareIndex
