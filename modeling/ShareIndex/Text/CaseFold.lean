/-!
# ShareIndex.Text.CaseFold

Texts without the difference of case.

* `fold`       — the full case folding of a character, as far as ASCII is concerned.
* `foldText`   — the folding of a text: texts that differ in case only have the same.
-/

namespace ShareIndex
namespace Text

/-- The case folding of a character that folds to ASCII; every other character stands for itself. -/
def fold (c : Char) : List Char :=
  match c with
  | '\u212a' => ['k']
  | '\u017f' => ['s']
  | '\u00df' | '\u1e9e' => ['s', 's']
  | '\ufb00' => ['f', 'f']
  | '\ufb01' => ['f', 'i']
  | '\ufb02' => ['f', 'l']
  | '\ufb03' => ['f', 'f', 'i']
  | '\ufb04' => ['f', 'f', 'l']
  | '\ufb05' | '\ufb06' => ['s', 't']
  | _ => [c.toLower]

def foldText (text : String) : String := String.ofList (text.toList.flatMap fold)

end Text
end ShareIndex
