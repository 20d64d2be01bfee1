/-!
# ShareIndex.Text.Blank

Blank characters: those with the Unicode property `White_Space`.

* `isBlank` — the property.
* `trim`    — a text without the blank characters at its two ends.
-/

namespace ShareIndex
namespace Text

/-- The Unicode property `White_Space`. -/
def isBlank (c : Char) : Bool :=
  let n := c.toNat
  (9 ≤ n && n ≤ 13) || n == 32 || n == 0x85 || n == 0xA0 || n == 0x1680 || (0x2000 ≤ n && n ≤ 0x200A)
    || n == 0x2028 || n == 0x2029 || n == 0x202F || n == 0x205F || n == 0x3000

/-- The text without its trailing characters that satisfy `p`. -/
def dropEndWhile (p : Char → Bool) (cs : List Char) : List Char := (cs.reverse.dropWhile p).reverse

/-- The text without the blank characters at both ends. -/
def trim (cs : List Char) : List Char := dropEndWhile isBlank (cs.dropWhile isBlank)

def isBlankText (cs : List Char) : Bool := cs.all isBlank

end Text
end ShareIndex
