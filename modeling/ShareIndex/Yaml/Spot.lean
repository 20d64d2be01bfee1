/-!
# ShareIndex.Yaml.Spot

The characters of a YAML text with their positions.

* `isBreak`, `isGap` — line breaks and blanks; `unifyBreaks` writes the usual line breaks as line feeds.
* `admissible`       — the characters that a text may hold.
* `Spot`             — a character at a line and a column, and how many bytes come before it.
* `spots`            — all of them, for a text of admissible characters.
-/

namespace ShareIndex
namespace Yaml

/-- After `unifyBreaks` these three are all line breaks that are left. -/
def isBreak (c : Char) : Bool := c == '\n' || c == '\u2028' || c == '\u2029'

def isGap (c : Char) : Bool := c == ' ' || c == '\t'

/-- A carriage return, a pair of it and a line feed, and a next-line character are line feeds. -/
def unifyBreaks : List Char → List Char
  | '\r' :: '\n' :: cs => '\n' :: unifyBreaks cs
  | '\r' :: cs => '\n' :: unifyBreaks cs
  | '\u0085' :: cs => '\n' :: unifyBreaks cs
  | c :: cs => c :: unifyBreaks cs
  | [] => []

/-- Control characters and noncharacters are not admitted. -/
def admissible (c : Char) : Bool :=
  let n := c.toNat
  n == 0x9 || n == 0xA || n == 0xD || (0x20 ≤ n && n ≤ 0x7E) || n == 0x85 || (0xA0 ≤ n && n ≤ 0xFFFD) || 0x10000 ≤ n

structure Spot where
  char : Char
  line : Nat
  column : Nat
  /-- In bytes. -/
  index : Nat
  deriving DecidableEq, Repr

def spotsFrom (line column index : Nat) : List Char → List Spot
  | [] => []
  | c :: cs =>
    ⟨c, line, column, index⟩ ::
      if isBreak c then spotsFrom (line + 1) 0 (index + c.utf8Size) cs
      else spotsFrom line (column + 1) (index + c.utf8Size) cs

def byteOrderMark : Char := '\ufeff'

def spots (text : List Char) : Option (List Spot) :=
  if text.all admissible then some (spotsFrom 0 0 0 (unifyBreaks text)) else none

/-- Whether the character after `n` others is a blank or a line break, or there is none. -/
def gapAt (n : Nat) (rest : List Spot) : Bool :=
  match rest[n]? with
  | none => true
  | some s => isGap s.char || isBreak s.char

def charAt (n : Nat) (rest : List Spot) (c : Char) : Bool :=
  match rest[n]? with
  | none => false
  | some s => s.char == c

/-- Three times the same character at the start of a line, followed by a blank. -/
def marksDocument (c : Char) : List Spot → Bool
  | [] => false
  | s :: rest =>
    s.column == 0 && s.char == c && charAt 0 rest c && charAt 1 rest c && gapAt 2 rest

/-- A line that starts or ends a document. -/
def isDocumentMark (rest : List Spot) : Bool := marksDocument '-' rest || marksDocument '.' rest

end Yaml
end ShareIndex
