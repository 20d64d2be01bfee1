import ShareIndex.Text.Binary64
import ShareIndex.Text.Markup

/-!
# ShareIndex.Template.Value

The values that a template works on.

* `Value`          — nothing, truth values, numbers, texts, lists, and maps with text keys.
* `Value.isTrue`   — the values that a condition accepts: those that are not empty or zero.
* `Value.write`    — the text of a value; lists and maps have none.
* `Formatter`      — how a value is written into a page.
-/

namespace ShareIndex
namespace Template

inductive Value where
  | nothing
  | truth (value : Bool)
  | integer (value : Int)
  | decimal (value : Binary64)
  | text (value : List Char)
  | list (items : List Value)
  /-- The entries are in ascending order of their keys. -/
  | map (entries : List (String × Value))

namespace Value

def ofString (s : String) : Value := text s.toList

def ofOption (s : Option String) : Value :=
  match s with
  | none => nothing
  | some s => ofString s

def isTrue : Value → Bool
  | nothing => false
  | truth value => value
  | integer value => value != 0
  | decimal value => !value.isZero
  | text value => !value.isEmpty
  | list items => !items.isEmpty
  | map entries => !entries.isEmpty

def write : Value → Option (List Char)
  | nothing => some []
  | truth true => some "true".toList
  | truth false => some "false".toList
  | integer value => some (Decimal.render value)
  | decimal value => some value.render.toList
  | text value => some value
  | list _ => none
  | map _ => none

end Value

inductive Formatter where
  | verbatim
  | html
  deriving DecidableEq, Repr

namespace Formatter

/-- The name by which a template asks for a formatter. -/
def ofName? (name : String) : Option Formatter := if name = "html" then some html else none

def format : Formatter → Value → Option (List Char)
  | html, .text value => some (Text.escape value)
  | _, value => value.write

end Formatter
end Template
end ShareIndex
