import ShareIndex.Datum
import ShareIndex.Text.Decimal
import ShareIndex.Text.Hexadecimal

/-!
# ShareIndex.Json.Writer

Data as JSON, without any blanks.

* `escapeChar` — how a character stands in a quoted text; no control character stands for itself.
* `quote`      — a text in quotes.
* `write`      — a datum; the entries of a table stand in their order.
-/

namespace ShareIndex
namespace Json

def escapeChar (c : Char) : List Char :=
  if c = '"' then ['\\', '"']
  else if c = '\\' then ['\\', '\\']
  else if c = '\x08' then ['\\', 'b']
  else if c = '\t' then ['\\', 't']
  else if c = '\n' then ['\\', 'n']
  else if c = '\x0c' then ['\\', 'f']
  else if c = '\r' then ['\\', 'r']
  else if c.toNat < 32 then 
    ['\\', 'u', '0', '0', Hexadecimal.digitChar (c.toNat / 16), Hexadecimal.digitChar (c.toNat % 16)]
  else [c]

def escape (cs : List Char) : List Char := cs.flatMap escapeChar

def quote (s : String) : List Char := '"' :: escape s.toList ++ ['"']

mutual

def write : Datum → List Char
  | .absent => ['n', 'u', 'l', 'l']
  | .truth true => ['t', 'r', 'u', 'e']
  | .truth false => ['f', 'a', 'l', 's', 'e']
  | .integer n => Decimal.render n
  | .number numeral => numeral.toList
  | .text s => quote s
  | .list [] => ['[', ']']
  | .list (item :: items) => '[' :: write item ++ writeItems items
  | .table [] => ['{', '}']
  | .table ((key, value) :: entries) => '{' :: quote key ++ ':' :: write value ++ writeEntries entries

/-- Further items and the end of their list. -/
def writeItems : List Datum → List Char
  | [] => [']']
  | item :: items => ',' :: write item ++ writeItems items

/-- Further entries and the end of their table. -/
def writeEntries : List (String × Datum) → List Char
  | [] => ['}']
  | (key, value) :: entries => ',' :: quote key ++ ':' :: write value ++ writeEntries entries

end

end Json
end ShareIndex
