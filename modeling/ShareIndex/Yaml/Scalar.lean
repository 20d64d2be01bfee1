import ShareIndex.Text.Hexadecimal
import ShareIndex.Yaml.Spot

/-!
# ShareIndex.Yaml.Scalar

The written forms of scalars: plain, in quotes, and as indented blocks.

* `Gap`    — the blanks and line breaks between two words of a scalar; `Gap.fold` is what remains of them.
* `plain`  — reads a plain scalar.
* `quoted` — reads the rest of a scalar in single or double quotes.
* `block`  — reads a literal or folded block after its indicator.
-/

namespace ShareIndex
namespace Yaml

inductive Style where
  | plain
  | singleQuoted
  | doubleQuoted
  | literal
  | folded
  deriving DecidableEq, Repr

structure Gap where
  blanks : List Char
  broken : Bool
  firstBreak : List Char
  moreBreaks : List Char

namespace Gap

def none : Gap := ⟨[], false, [], []⟩

/-- A gap whose first line break does not count. -/
def escapedBreak : Gap := ⟨[], true, [], []⟩

def isNone (g : Gap) : Bool := g.blanks.isEmpty && !g.broken

/-- Blanks at the start of a line do not count. -/
def addBlank (g : Gap) (c : Char) : Gap := if g.broken then g else { g with blanks := g.blanks ++ [c] }

/-- Blanks at the end of a line do not count. -/
def addBreak (g : Gap) (c : Char) : Gap :=
  if g.broken then { g with moreBreaks := g.moreBreaks ++ [c] }
  else { g with blanks := [], broken := true, firstBreak := [c] }

/-- One line feed becomes a space; of more, all but the first remain. -/
def fold (g : Gap) : List Char :=
  if g.broken then
    if g.firstBreak = ['\n'] then (if g.moreBreaks.isEmpty then [' '] else g.moreBreaks)
    else g.firstBreak ++ g.moreBreaks
  else g.blanks

end Gap

def isFlowIndicator (c : Char) : Bool := c == ',' || c == '[' || c == ']' || c == '{' || c == '}'

/-- Whether a plain scalar ends before the first character of `rest`. -/
def endsPlain (inFlow : Bool) (c : Char) (rest : List Spot) : Bool :=
  (c == ':' && gapAt 0 rest) || (inFlow && isFlowIndicator c)

/-- A colon in a flow collection must not stand before an indicator. -/
def misplacedColon (inFlow : Bool) (c : Char) : List Spot → Bool
  | [] => false
  | next :: _ => inFlow && c == ':' && (isFlowIndicator next.char || next.char == '?')

/--
Reads a plain scalar whose further lines are indented by at least `indent`. Answers its text, whether line
breaks follow it, and what comes after those.
-/
def plain (inFlow : Bool) (indent : Int) (text : List Char) (gap : Gap) :
    List Spot → Option (List Char × Bool × List Spot)
  | [] => some (text.reverse, gap.broken, [])
  | s :: rest =>
    if isGap s.char then
      if gap.broken && s.char == '\t' && decide ((s.column : Int) < indent) then none
      else plain inFlow indent text (gap.addBlank s.char) rest
    else if isBreak s.char then plain inFlow indent text (gap.addBreak s.char) rest
    else if !gap.isNone && ((!inFlow && decide ((s.column : Int) < indent)) || isDocumentMark (s :: rest)
        || s.char == '#') then
      some (text.reverse, gap.broken, s :: rest)
    else if misplacedColon inFlow s.char rest then none
    else if endsPlain inFlow s.char rest then some (text.reverse, gap.broken, s :: rest)
    else plain inFlow indent (s.char :: (gap.fold.reverse ++ text)) .none rest

/-! ### Quotes -/

/-- The number that `n` hexadecimal digits stand for. -/
def hexNumber? (n : Nat) (rest : List Spot) : Option Nat :=
  if rest.length < n then none else Hexadecimal.ofDigits? ((rest.take n).map (·.char))

/-- What a backslash with the given character stands for, or how many hexadecimal digits follow. -/
def escape? : Char → Option (Char ⊕ Nat)
  | '0' => some (.inl '\x00')
  | 'a' => some (.inl '\x07')
  | 'b' => some (.inl '\x08')
  | 't' => some (.inl '\t')
  | '\t' => some (.inl '\t')
  | 'n' => some (.inl '\n')
  | 'v' => some (.inl '\x0b')
  | 'f' => some (.inl '\x0c')
  | 'r' => some (.inl '\r')
  | 'e' => some (.inl '\x1b')
  | ' ' => some (.inl ' ')
  | '"' => some (.inl '"')
  | '/' => some (.inl '/')
  | '\\' => some (.inl '\\')
  | 'N' => some (.inl '\u0085')
  | '_' => some (.inl '\u00a0')
  | 'L' => some (.inl '\u2028')
  | 'P' => some (.inl '\u2029')
  | 'x' => some (.inr 2)
  | 'u' => some (.inr 4)
  | 'U' => some (.inr 8)
  | _ => none

/-- Reads up to the closing quote; answers the text and what follows the quote. -/
def quoted (single : Bool) (text : List Char) (gap : Gap) : List Spot → Option (List Char × List Spot)
  | [] => none
  | s :: rest =>
    if isDocumentMark (s :: rest) then none
    else if isGap s.char then quoted single text (gap.addBlank s.char) rest
    else if isBreak s.char then quoted single text (gap.addBreak s.char) rest
    else
      let text := gap.fold.reverse ++ text
      if single then
        if s.char = '\'' then
          match rest with
          | [] => some (text.reverse, [])
          | next :: rest =>
            if next.char = '\'' then quoted single ('\'' :: text) .none rest else some (text.reverse, next :: rest)
        else quoted single (s.char :: text) .none rest
      else if s.char = '"' then some (text.reverse, rest)
      else if s.char = '\\' then
        match rest with
        | [] => none
        | e :: rest =>
          if isBreak e.char then quoted single text .escapedBreak rest
          else
            match escape? e.char with
            | none => none
            | some (.inl c) => quoted single (c :: text) .none rest
            | some (.inr digits) =>
              match (hexNumber? digits rest).bind Hexadecimal.character? with
              | none => none
              | some c => quoted single (c :: text) .none (rest.drop digits)
      else quoted single (s.char :: text) .none rest
  termination_by rest => rest.length
  decreasing_by all_goals simp only [List.length_cons, List.length_drop]; omega

/-! ### Blocks -/

inductive Chomp where
  | strip
  | clip
  | keep
  deriving DecidableEq, Repr

def chomp? : Char → Option Chomp
  | '+' => some .keep
  | '-' => some .strip
  | _ => none

def digit? (c : Char) : Option Nat := if c.isDigit then some (c.toNat - '0'.toNat) else none

/-- The chomping and indentation indicators of a block, in either order; an indentation of 0 is refused. -/
def blockHeader (rest : List Spot) : Option (Chomp × Nat × List Spot) :=
  match rest with
  | [] => some (.clip, 0, [])
  | a :: more =>
    match chomp? a.char, digit? a.char with
    | some chomp, _ =>
      match more with
      | b :: others =>
        match digit? b.char with
        | some 0 => none
        | some n => some (chomp, n, others)
        | none => some (chomp, 0, more)
      | [] => some (chomp, 0, [])
    | none, some 0 => none
    | none, some n =>
      match more with
      | b :: others =>
        match chomp? b.char with
        | some chomp => some (chomp, n, others)
        | none => some (.clip, n, more)
      | [] => some (.clip, n, [])
    | none, none => some (.clip, 0, rest)

/-- The rest of a line that may hold a comment only; answers what follows its line break. -/
def restOfLine (inComment : Bool) : List Spot → Option (List Spot)
  | [] => some []
  | s :: rest =>
    if isBreak s.char then some rest
    else if inComment || isGap s.char then restOfLine inComment rest
    else if s.char = '#' then restOfLine true rest
    else none

/--
Skips empty lines and the indentation of the next line, of `indent` columns or, when that is 0, of as many as
there are. Answers the line breaks, the widest indentation and what follows.
-/
def blockBreaks (indent widest : Nat) (breaks : List Char) : List Spot → Option (List Char × Nat × List Spot)
  | [] => some (breaks, widest, [])
  | s :: rest =>
    let inside := indent = 0 ∨ s.column < indent
    if s.char = ' ' ∧ inside then blockBreaks indent (max widest (s.column + 1)) breaks rest
    else if s.char = '\t' ∧ inside then none
    else if isBreak s.char then blockBreaks indent widest (breaks ++ [s.char]) rest
    else some (breaks, widest, s :: rest)

/-- The rest of a line, its line break, and what follows. -/
def blockLine : List Spot → List Char × List Char × List Spot
  | [] => ([], [], [])
  | s :: rest =>
    if isBreak s.char then ([], [s.char], rest)
    else
      let (line, lineBreak, after) := blockLine rest
      (s.char :: line, lineBreak, after)

/-- What has been read of a block. -/
structure BlockText where
  text : List Char
  /-- The line break after the last line. -/
  lineBreak : List Char
  /-- The line breaks of empty lines after that. -/
  emptyLines : List Char
  /-- Whether the last line starts with a blank. -/
  leadingBlank : Bool

/-- The text before a further line; two lines that do not start with a blank are folded. -/
def BlockText.joined (b : BlockText) (folds startsBlank : Bool) : List Char :=
  if folds && b.lineBreak == ['\n'] && !b.leadingBlank && !startsBlank then
    b.text ++ (if b.emptyLines.isEmpty then [' '] else []) ++ b.emptyLines
  else b.text ++ b.lineBreak ++ b.emptyLines

def BlockText.chomped (b : BlockText) : Chomp → List Char
  | .strip => b.text
  | .clip => b.text ++ b.lineBreak
  | .keep => b.text ++ b.lineBreak ++ b.emptyLines

/-- Reads lines as long as they have the indentation of the block; `fuel` bounds their number. -/
def blockLines (folds : Bool) (indent : Nat) : Nat → BlockText → List Spot → Option (BlockText × List Spot)
  | 0, b, rest => some (b, rest)
  | _, b, [] => some (b, [])
  | fuel + 1, b, s :: rest =>
    if s.column = indent then
      let startsBlank := isGap s.char
      let (line, lineBreak, after) := blockLine (s :: rest)
      match blockBreaks indent 0 [] after with
      | none => none
      | some (emptyLines, _, after) =>
        blockLines folds indent fuel ⟨b.joined folds startsBlank ++ line, lineBreak, emptyLines, startsBlank⟩ after
    else some (b, s :: rest)

/-- Reads a block inside a collection that is indented by `parent` columns (-1 at the top). -/
def block (folds : Bool) (parent : Int) (rest : List Spot) : Option (List Char × List Spot) := do
  let (chomp, increment, rest) ← blockHeader rest
  let rest ← restOfLine false rest
  let given := if increment = 0 then 0 else if 0 ≤ parent then parent.toNat + increment else increment
  let (breaks, widest, rest) ← blockBreaks given 0 [] rest
  let indent := if given = 0 then max (max widest (parent + 1).toNat) 1 else given
  let (b, rest) ← blockLines folds indent (rest.length + 1) ⟨[], [], breaks, false⟩ rest
  return (b.chomped chomp, rest)

end Yaml
end ShareIndex
