import ShareIndex.Datum
import ShareIndex.Text.Binary64
import ShareIndex.Text.Hexadecimal

/-!
# ShareIndex.Json.Token

The tokens of JSON.

* `Token`    — brackets, commas, colons, and the data that are not made of other data.
* `readText` — the rest of a quoted text, after its opening quote.
* `numeral?` — the longest numeral at the start of a text.
* `tokens?`  — the tokens of a text.
-/

namespace ShareIndex
namespace Json

inductive Token where
  | openList
  | closeList
  | openTable
  | closeTable
  | comma
  | colon
  | scalar (value : Datum)

/-! ### Texts -/

/-- What a backslash with the given character stands for. -/
def escaped? : Char → Option Char
  | '"' => some '"'
  | '\\' => some '\\'
  | '/' => some '/'
  | 'b' => some '\x08'
  | 'f' => some '\x0c'
  | 'n' => some '\n'
  | 'r' => some '\r'
  | 't' => some '\t'
  | _ => none

/-- The number that four hexadecimal digits stand for. -/
def unit? (cs : List Char) : Option Nat := if cs.length < 4 then none else Hexadecimal.ofDigits? (cs.take 4)

def isHighSurrogate (n : Nat) : Bool := 0xD800 ≤ n && n ≤ 0xDBFF

def isLowSurrogate (n : Nat) : Bool := 0xDC00 ≤ n && n ≤ 0xDFFF

/-- The character of one number, or of two numbers that are surrogates; one surrogate alone is refused. -/
def numbered? (cs : List Char) : Option (Char × List Char) :=
  match unit? cs with
  | none => none
  | some first =>
    if isHighSurrogate first then
      match cs.drop 4 with
      | '\\' :: 'u' :: rest =>
        match unit? rest with
        | none => none
        | some second =>
          if isLowSurrogate second then
            (Hexadecimal.character? (0x10000 + (first - 0xD800) * 0x400 + (second - 0xDC00))).map (·, rest.drop 4)
          else none
      | _ => none
    else (Hexadecimal.character? first).map (·, cs.drop 4)

/-- The first character of a quoted text, and what follows it. -/
def character? : List Char → Option (Char × List Char)
  | [] => none
  | '\\' :: 'u' :: rest => numbered? rest
  | '\\' :: c :: rest => (escaped? c).map (·, rest)
  | c :: rest => if c = '\\' ∨ c.toNat < 32 then none else some (c, rest)

theorem length_of_numbered? {cs rest : List Char} {c : Char} (h : numbered? cs = some (c, rest)) :
    rest.length ≤ cs.length := by
  simp only [numbered?] at h
  split at h
  · cases h
  · split at h
    · split at h
      · rename_i rest' heq
        split at h
        · cases h
        · split at h
          · obtain ⟨_, _, hc⟩ := Option.map_eq_some_iff.mp h
            cases hc
            have := congrArg List.length heq
            simp only [List.length_drop, List.length_cons] at this ⊢
            omega
          · cases h
      · cases h
    · obtain ⟨_, _, hc⟩ := Option.map_eq_some_iff.mp h
      cases hc
      simp only [List.length_drop]
      omega

theorem length_of_character? {cs rest : List Char} {c : Char} (h : character? cs = some (c, rest)) :
    rest.length < cs.length := by
  unfold character? at h
  split at h
  · cases h
  · have := length_of_numbered? h
    simp only [List.length_cons]
    omega
  · obtain ⟨_, _, hc⟩ := Option.map_eq_some_iff.mp h
    cases hc
    simp only [List.length_cons]
    omega
  · split at h
    · cases h
    · cases h
      simp

/-- A text up to its closing quote, and what follows the quote. -/
def readText (cs : List Char) : Option (List Char × List Char) :=
  if cs.head? = some '"' then some ([], cs.tail)
  else
    match _ : character? cs with
    | none => none
    | some (c, rest) => (readText rest).map fun (text, after) => (c :: text, after)
termination_by cs.length
decreasing_by exact length_of_character? ‹_›

/-! ### Numbers -/

/-- Digits, of which there must be one. -/
def someDigits? (cs : List Char) : Option (List Char × List Char) :=
  let digits := cs.takeWhile Decimal.isDigit
  if digits.isEmpty then none else some (digits, cs.dropWhile Decimal.isDigit)

/-- An optional point with digits after it. -/
def fraction? : List Char → Option (List Char × List Char)
  | '.' :: cs => (someDigits? cs).map fun (digits, rest) => ('.' :: digits, rest)
  | cs => some ([], cs)

/-- An optional mark with a signed number after it. -/
def exponent? : List Char → Option (List Char × List Char)
  | [] => some ([], [])
  | c :: cs =>
    if c = 'e' ∨ c = 'E' then
      match cs with
      | '+' :: cs => (someDigits? cs).map fun (digits, rest) => (c :: '+' :: digits, rest)
      | '-' :: cs => (someDigits? cs).map fun (digits, rest) => (c :: '-' :: digits, rest)
      | cs => (someDigits? cs).map fun (digits, rest) => (c :: digits, rest)
    else some ([], c :: cs)

/-- Adds digits to a number as long as 64 bits hold it; answers the number and the digits that are left. -/
def addDigits (n : Nat) : List Char → Nat × List Char
  | [] => (n, [])
  | c :: cs =>
    let next := 10 * n + Decimal.digitValue c
    if next < Decimal.wordLimit then addDigits next cs else (n, c :: cs)

/-- Whether the product of a number and a power of ten, each as near as it can be, is not too large. -/
def isProductFinite (significand : Nat) (exponent : Int) : Bool :=
  if significand = 0 ∨ exponent ≤ 0 then true
  else if 308 < exponent then false
  else ((Binary64.nearest false significand 0).multiply (.nearest false 1 exponent)).isFinite

def exponentOf : List Char → Int
  | [] => 0
  | _ :: '-' :: digits => -(Decimal.ofDigits digits : Int)
  | _ :: '+' :: digits => Decimal.ofDigits digits
  | _ :: digits => Decimal.ofDigits digits

/-- Whether a number is not too large. Only so many digits count as a word of 64 bits holds; further ones before the
point still have their places. -/
def isRepresentable (digits fraction exponent : List Char) : Bool :=
  let (whole, places) := addDigits 0 digits
  let (significand, rest) := addDigits whole fraction
  isProductFinite significand (exponentOf exponent + places.length - (fraction.length - rest.length : Nat))

/-- A number of 64 bits, signed or not; minus zero is not an integer. Other numbers must not be too large. -/
def numberOf? (negative : Bool) (digits fraction exponent : List Char) : Option Datum :=
  let numeral := (if negative then ['-'] else []) ++ digits ++ fraction ++ exponent
  let n := Decimal.ofDigits digits
  let whole := fraction.isEmpty && exponent.isEmpty
  if whole && !negative && n < Decimal.wordLimit then some (.integer n)
  else if whole && negative && n != 0 && Decimal.minimum ≤ -n then some (.integer (-n))
  else if isRepresentable digits (fraction.drop 1) exponent then some (.number (String.ofList numeral))
  else none

/-- The number at the start of a text, and what follows it; a leading zero stands alone. -/
def numeral? (cs : List Char) : Option (Datum × List Char) :=
  let negative := cs.head? == some '-'
  match someDigits? (if negative then cs.tail else cs) with
  | none => none
  | some (digits, rest) =>
    if digits.head? = some '0' ∧ digits.length ≠ 1 then none
    else
      match fraction? rest with
      | none => none
      | some (fraction, rest) =>
        match exponent? rest with
        | none => none
        | some (exponent, rest) => (numberOf? negative digits fraction exponent).map (·, rest)

/-! ### Tokens -/

def isBlank (c : Char) : Bool := c == ' ' || c == '\n' || c == '\t' || c == '\r'

/-- The first token of a text that starts with no blank, and what follows it. -/
def token? : List Char → Option (Token × List Char)
  | '[' :: rest => some (.openList, rest)
  | ']' :: rest => some (.closeList, rest)
  | '{' :: rest => some (.openTable, rest)
  | '}' :: rest => some (.closeTable, rest)
  | ',' :: rest => some (.comma, rest)
  | ':' :: rest => some (.colon, rest)
  | '"' :: rest => (readText rest).map fun (text, rest) => (.scalar (.text (String.ofList text)), rest)
  | 't' :: 'r' :: 'u' :: 'e' :: rest => some (.scalar (.truth true), rest)
  | 'f' :: 'a' :: 'l' :: 's' :: 'e' :: rest => some (.scalar (.truth false), rest)
  | 'n' :: 'u' :: 'l' :: 'l' :: rest => some (.scalar .absent, rest)
  | cs => (numeral? cs).map fun (value, rest) => (.scalar value, rest)

/-- The tokens of a text; `fuel` bounds their number. -/
def tokensWithin? : Nat → List Char → Option (List Token)
  | _, [] => some []
  | 0, _ :: _ => none
  | fuel + 1, c :: cs =>
    if isBlank c then tokensWithin? fuel cs
    else
      match token? (c :: cs) with
      | none => none
      | some (token, rest) => (tokensWithin? fuel rest).map (token :: ·)

def tokens? (cs : List Char) : Option (List Token) := tokensWithin? cs.length cs

end Json
end ShareIndex
