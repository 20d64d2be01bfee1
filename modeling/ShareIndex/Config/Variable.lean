import ShareIndex.Datum
import ShareIndex.Text.Binary64
import ShareIndex.Text.Hexadecimal
import ShareIndex.Text.Segment

/-!
# ShareIndex.Config.Variable

Variables of the environment as settings.

* `value`    — what the text of a variable stands for; a text that cannot be read stands for itself.
* `keys?`    — the keys that the name of a variable stands for.
* `setting?` — the setting of a variable.
* `table`    — the settings of all variables; of two variables for one setting the later one counts.
-/

namespace ShareIndex
namespace Config
namespace Variable

/-! ### Values -/

def isSpace (c : Char) : Bool := c == ' ' || c == '\t' || c == '\n' || c == '\x0c' || c == '\r'

def skipSpaces (cs : List Char) : List Char := cs.dropWhile isSpace

def isSeparator (c : Char) : Bool := c == ',' || c == '{' || c == '}' || c == '[' || c == ']'

def escaped? : Char → Option Char
  | '"' => some '"'
  | '\\' => some '\\'
  | 'b' => some '\x08'
  | 'f' => some '\x0c'
  | 'n' => some '\n'
  | 'r' => some '\r'
  | 't' => some '\t'
  | _ => none

def numbered? (digits : Nat) (cs : List Char) : Option (Char × List Char) :=
  if cs.length < digits then none
  else ((Hexadecimal.ofDigits? (cs.take digits)).bind Hexadecimal.character?).map (·, cs.drop digits)

/-- The character that stands after a backslash, and what follows it. -/
def escape? : List Char → Option (Char × List Char)
  | [] => none
  | 'u' :: cs => numbered? 4 cs
  | 'U' :: cs => numbered? 8 cs
  | c :: cs => (escaped? c).map (·, cs)

/-- A text up to its closing quote; `fuel` bounds the number of characters. -/
def quoted? : (fuel : Nat) → List Char → Option (List Char × List Char)
  | 0, _ => none
  | _, [] => none
  | fuel + 1, c :: cs => do
    if c = '"' then some ([], cs)
    else if c = '\\' then
      let (c, rest) ← escape? cs
      let (text, rest) ← quoted? fuel rest
      return (c :: text, rest)
    else if (c.toNat < 32 ∧ c ≠ '\t') ∨ c.toNat = 127 then none
    else
      let (text, rest) ← quoted? fuel cs
      return (c :: text, rest)

/-- Whether a text with a point in it is a numeral. -/
def isDecimal (cs : List Char) : Bool :=
  let digits := match cs with
    | '+' :: cs | '-' :: cs => cs
    | cs => cs
  cs.contains '.' && (Binary64.ofNumeral? false digits).isSome

/-- A number if it is one of 64 bits, signed or not, and else a text. -/
def bare (cs : List Char) : Datum :=
  let text := String.ofList cs
  if isDecimal cs then .number text
  else
    match Decimal.parse cs with
    | none => .text text
    | some n =>
      let unsigned := cs.head? != some '-' && 0 ≤ n && n < Decimal.wordLimit
      if unsigned || Decimal.InRange n then .integer n else .text text

def isKey (c : Char) : Bool := c.isAlphanum || c == '_' || c == '-'

/-- The key of an entry, with its mark. -/
def key? (cs : List Char) : Option (String × List Char) :=
  let (key, rest) := match skipSpaces cs with
    | '"' :: rest =>
      match quoted? (rest.length + 1) rest with
      | some (key, rest) => (some key, rest)
      | none => (none, rest)
    | cs =>
      let key := cs.takeWhile isKey
      (if key.isEmpty then none else some key, cs.dropWhile isKey)
  match key, skipSpaces rest with
  | some key, '=' :: rest => some (String.ofList key, rest)
  | _, _ => none

mutual

/-- The value at the start of a text; `fuel` bounds the number of parts. -/
def value? : (fuel : Nat) → List Char → Option (Datum × List Char)
  | 0, _ => none
  | fuel + 1, cs =>
    match skipSpaces cs with
    | 't' :: 'r' :: 'u' :: 'e' :: rest => some (.truth true, skipSpaces rest)
    | 'f' :: 'a' :: 'l' :: 's' :: 'e' :: rest => some (.truth false, skipSpaces rest)
    | '{' :: rest => (entries? fuel [] rest).map fun (entries, rest) => (.table entries, skipSpaces rest)
    | '[' :: rest => (items? fuel rest).map fun (items, rest) => (.list items, skipSpaces rest)
    | '"' :: rest =>
      (quoted? (rest.length + 1) rest).map fun (text, rest) => (.text (String.ofList text), skipSpaces rest)
    | '\'' :: rest =>
      match rest with
      | c :: '\'' :: rest => some (.text c.toString, skipSpaces rest)
      | _ => none
    | rest =>
      let word := rest.takeWhile fun c => !isSeparator c
      some (bare (Text.trim word), skipSpaces (rest.drop word.length))

/-- Items up to the end of their list; a comma may follow the last one. -/
def items? : (fuel : Nat) → List Char → Option (List Datum × List Char)
  | 0, _ => none
  | fuel + 1, cs => do
    if cs.head? = some ']' then some ([], cs.tail)
    else
      match ← value? fuel cs with
      | (item, ',' :: rest) =>
        let (items, rest) ← items? fuel rest
        return (item :: items, rest)
      | (item, ']' :: rest) => return ([item], rest)
      | _ => none

/-- Entries up to the end of their table; a comma may follow the last one. -/
def entries? : (fuel : Nat) → List (String × Datum) → List Char → Option (List (String × Datum) × List Char)
  | 0, _, _ => none
  | fuel + 1, entries, cs => do
    if cs.head? = some '}' then some (entries, cs.tail)
    else
      let (key, rest) ← key? cs
      match ← value? fuel rest with
      | (value, ',' :: rest) => entries? fuel (Datum.put key value entries) rest
      | (value, '}' :: rest) => return (Datum.put key value entries, rest)
      | _ => none

end

/-- What is not read to its end is a text as it stands. -/
def value (text : String) : Datum :=
  match value? (2 * text.length + 2) text.toList with
  | some (d, []) => d
  | _ => .text text

/-! ### Names -/

/-- What the names of all variables start with, in any case. -/
def nameStart : String := "fetchtrack_"

/-- The keys in a name that starts as the names of variables do. Blanks around all of them do not count, and no key
is empty. -/
def keys? (name : String) : Option (List String) :=
  let cs := (Text.trim name.toList).map Char.toLower
  if cs.take nameStart.length != nameStart.toList then none
  else
    let keys := Text.segments '.' (Text.trim (cs.drop nameStart.length))
    if keys.any List.isEmpty then none else some (keys.map String.ofList)

/-- The setting that a variable is meant for, if it is meant for one, and its value there. A key after a point is one
in the table of the key before it. -/
def setting? (name text : String) : Option (String × Datum) :=
  match keys? name with
  | some (key :: rest) => some (key, (value text).within rest)
  | _ => none

def table (values : List (String × String)) : Datum :=
  .table (values.foldl (fun table (name, text) =>
    match setting? name text with
    | some (key, d) => Datum.put key d table
    | none => table) [])

end Variable
end Config
end ShareIndex
