import ShareIndex.Text.Blank
import ShareIndex.Text.Decimal

/-!
# ShareIndex.Text.Binary64

Binary floating-point numbers with 53 significant bits, read from decimal numerals and written with the fewest
digits that read back.

* `Binary64.nearest`  — the number nearest to `digits · 10 ^ exponent`; a tie goes to the even significand.
* `Binary64.shortest` — the decimal with the fewest digits among those that read back, and of them the nearest.
* `Binary64.render`   — that decimal in positional notation.
* `Binary64.ofNumeral?` — reads a numeral: digits with an optional point and an optional exponent.
-/

namespace ShareIndex

/-- A finite number is `significand · 2 ^ scale`. -/
inductive Binary64 where
  | finite (negative : Bool) (significand : Nat) (scale : Int)
  | infinite (negative : Bool)
  deriving DecidableEq, Repr

namespace Binary64

/-- The scale of the numbers that are closest to zero. -/
def minScale : Int := -1074

def maxScale : Int := 971

/-- A significand has 53 bits. -/
def significandLimit : Nat := 9007199254740992

/-- The least significand of a number that is not at the smallest scale. -/
def minNormal : Nat := 4503599627370496

/-- The quotient, rounded to the nearest integer; a tie goes to the even one. -/
def roundDiv (num den : Nat) : Nat :=
  let q := num / den
  let r := num % den
  if 2 * r < den then q else if den < 2 * r then q + 1 else if q % 2 = 0 then q else q + 1

/-- A power as a fraction. -/
def powFraction (base : Nat) (exponent : Int) : Nat × Nat :=
  if 0 ≤ exponent then (Nat.pow base exponent.toNat, 1) else (1, Nat.pow base (-exponent).toNat)

/-- The number nearest to a positive fraction. -/
def ofFraction (negative : Bool) (num den : Nat) : Binary64 :=
  let guess : Int := (num.log2 : Int) - den.log2 - 53
  let reaches (scale : Int) : Bool :=
    let (a, b) := powFraction 2 (scale + 53)
    decide (a * den ≤ num * b)
  let scale := max minScale (if reaches guess then guess + 1 else guess)
  let (a, b) := powFraction 2 scale
  let m := roundDiv (num * b) (den * a)
  let (m, scale) := if m = significandLimit then (minNormal, scale + 1) else (m, scale)
  if maxScale < scale then infinite negative else finite negative m scale

def nearest (negative : Bool) (digits : Nat) (exponent : Int) : Binary64 :=
  let magnitude : Int := (Decimal.digits digits).length + exponent
  if digits = 0 ∨ magnitude < -330 then finite negative 0 minScale
  else if 310 < magnitude then infinite negative
  else
    let (a, b) := powFraction 10 exponent
    ofFraction negative (digits * a) b

def isNegative : Binary64 → Bool
  | finite negative _ _ => negative
  | infinite negative => negative

/-- The product, rounded to the nearest number. -/
def multiply : Binary64 → Binary64 → Binary64
  | finite s m e, finite t n f =>
    if m = 0 ∨ n = 0 then finite (s != t) 0 minScale
    else
      let (a, b) := powFraction 2 (e + f)
      ofFraction (s != t) (m * n * a) b
  | x, y => infinite (x.isNegative != y.isNegative)

def isFinite : Binary64 → Bool
  | finite _ _ _ => true
  | infinite _ => false

def isZero : Binary64 → Bool
  | finite _ m _ => m == 0
  | infinite _ => false

/-- The largest `e` with `10 ^ e` at most the positive fraction. -/
def decimalMagnitude (num den : Nat) : Int :=
  let guess : Int := ((Decimal.digits num).length : Int) - (Decimal.digits den).length
  let (a, b) := powFraction 10 guess
  if a * den ≤ num * b then guess else guess - 1

/-- Whether a fraction reads back as `m · 2 ^ scale`. -/
def readsBack (m : Nat) (scale : Int) (num den : Nat) : Bool :=
  let (a, b) := powFraction 2 (scale - 2)
  let lowGap := if m = minNormal ∧ minScale < scale then 1 else 2
  let value := num * b
  let low := (4 * m - lowGap) * a * den
  let high := (4 * m + 2) * a * den
  if m % 2 = 0 then decide (low ≤ value ∧ value ≤ high) else decide (low < value ∧ value < high)

/-- The neighbours of the value among the decimals of `n` digits that read back, if any; the nearer of two. -/
def withDigits? (m : Nat) (scale : Int) (n : Nat) : Option (Nat × Int) :=
  let (a, b) := powFraction 2 scale
  let num := m * a
  let place := decimalMagnitude num b - n + 1
  let (c, d) := powFraction 10 place
  let low := num * d / (b * c)
  let ok (digits : Nat) : Bool := readsBack m scale (digits * c) d
  if ok low ∧ ok (low + 1) then
    some (if 2 * (num * d) ≤ (2 * low + 1) * (b * c) then low else low + 1, place)
  else if ok low then some (low, place)
  else if ok (low + 1) then some (low + 1, place)
  else none

/-- Seventeen digits are always enough. -/
def shortest (m : Nat) (scale : Int) : Nat × Int :=
  ((List.range 17).findSome? fun n => withDigits? m scale (n + 1)).getD (0, 0)

/-- Digits with a point before the last `places` ones. -/
def pointed (digits : List Char) (places : Nat) : List Char :=
  let padded := List.replicate (places + 1 - digits.length) '0' ++ digits
  let whole := padded.take (padded.length - places)
  let rest := Text.dropEndWhile (· == '0') (padded.drop (padded.length - places))
  if rest.isEmpty then whole else whole ++ '.' :: rest

def positional (digits : Nat) (place : Int) : List Char :=
  if 0 ≤ place then Decimal.digits digits ++ List.replicate place.toNat '0'
  else pointed (Decimal.digits digits) (-place).toNat

def sign (negative : Bool) : List Char := if negative then ['-'] else []

def render : Binary64 → String
  | infinite negative => String.ofList (sign negative ++ "inf".toList)
  | finite negative m scale =>
    if m = 0 then String.ofList (sign negative ++ ['0'])
    else
      let (digits, place) := shortest m scale
      String.ofList (sign negative ++ positional digits place)

/-! ### Numerals -/

/-- An exponent: `e`, an optional sign and at least one digit, or nothing. -/
def exponentOf? : List Char → Option Int
  | [] => some 0
  | c :: cs =>
    if c = 'e' ∨ c = 'E' then
      let (negative, digits) := match cs with
        | '-' :: ds => (true, ds)
        | '+' :: ds => (false, ds)
        | ds => (false, ds)
      if digits.isEmpty || !digits.all Decimal.isDigit then none
      else some (if negative then -(Decimal.ofDigits digits : Int) else Decimal.ofDigits digits)
    else none

/-- Reads a numeral without a sign; there is a digit before or after the point. -/
def ofNumeral? (negative : Bool) (cs : List Char) : Option Binary64 :=
  let whole := cs.takeWhile Decimal.isDigit
  let rest := cs.dropWhile Decimal.isDigit
  let (fraction, rest) := match rest with
    | '.' :: more => (more.takeWhile Decimal.isDigit, more.dropWhile Decimal.isDigit)
    | more => ([], more)
  if whole.isEmpty && fraction.isEmpty then none
  else (exponentOf? rest).map fun e => nearest negative (Decimal.ofDigits (whole ++ fraction)) (e - fraction.length)

end Binary64
end ShareIndex
