/-!
# ShareIndex.Text.Markup

Text inside of a marked-up page.

* `entity?` — what a character that is part of the markup is written as.
* `escape`  — a text in which every such character is written that way.
-/

namespace ShareIndex
namespace Text

def entity? : Char → Option String
  | '&' => some "&amp;"
  | '<' => some "&lt;"
  | '>' => some "&gt;"
  | '"' => some "&quot;"
  | '\'' => some "&#39;"
  | _ => none

def escapeChar (c : Char) : List Char :=
  match entity? c with
  | some entity => entity.toList
  | none => [c]

def escape (cs : List Char) : List Char := cs.flatMap escapeChar

end Text
end ShareIndex
