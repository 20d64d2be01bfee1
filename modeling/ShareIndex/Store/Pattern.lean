/-!
# ShareIndex.Store.Pattern

Patterns of keys: `*` stands for any run of characters and `?` for one character, neither of them for a
line feed; every other character stands for itself.

* `Pattern.pieces`    — a pattern as a list of pieces, neighbouring runs being one run.
* `Pattern.matches`   — whether a key matches.
* `Pattern.bracketed` — the same pattern for a matcher that also knows bracketed classes (`Store.Glob`).
-/

namespace ShareIndex
namespace Store

/-- A pattern, by its text. A matcher has a limit on its size, and no pattern is made from a text that is too long. -/
structure Pattern where
  glob : String
  deriving DecidableEq, Repr

/-- What one position of a pattern asks for. -/
inductive Piece where
  | run
  | one
  | exactly (c : Char)
  deriving DecidableEq, Repr

namespace Piece

def ofChar (c : Char) : Piece :=
  if c = '*' then run else if c = '?' then one else exactly c

/-- The pieces of a pattern; a run that follows a run adds nothing. -/
def ofGlob : List Char → List Piece
  | [] => []
  | c :: cs =>
    match ofChar c, ofGlob cs with
    | run, run :: rest => run :: rest
    | piece, rest => piece :: rest

def isLineFeed (c : Char) : Bool := c == '\n'

end Piece

/-! ### Verdicts

A list of verdicts on a text has one for each of its tails, the longest first and the empty one last. The
verdicts for a pattern are computed from those for the rest of the pattern, so that no tail is looked at twice
with the same rest. -/

/-- Only the empty tail is empty. -/
def endVerdicts : List Char → List Bool
  | [] => [true]
  | _ :: cs => false :: endVerdicts cs

/-- Whether the first character of a tail satisfies `p`, and `verdicts` holds of what follows it. -/
def oneThen (p : Char → Bool) : List Char → List Bool → List Bool
  | c :: cs, _ :: verdicts => (p c && verdicts.headD false) :: oneThen p cs verdicts
  | _, _ => [false]

/-- Whether `verdicts` holds of what follows some characters that `skippable` admits. -/
def runThen (skippable : Char → Bool) : List Char → List Bool → List Bool
  | c :: cs, verdict :: verdicts =>
    let later := runThen skippable cs verdicts
    (verdict || (skippable c && later.headD false)) :: later
  | _, verdicts => verdicts

def pieceVerdicts (text : List Char) : List Piece → List Bool
  | [] => endVerdicts text
  | .run :: rest => runThen (!Piece.isLineFeed ·) text (pieceVerdicts text rest)
  | .one :: rest => oneThen (!Piece.isLineFeed ·) text (pieceVerdicts text rest)
  | .exactly c :: rest => oneThen (· == c) text (pieceVerdicts text rest)

def matchesPieces (pieces : List Piece) (text : List Char) : Bool := (pieceVerdicts text pieces).headD false

namespace Pattern

def pieces (p : Pattern) : List Piece := Piece.ofGlob p.glob.toList

def «matches» (p : Pattern) (key : String) : Bool := matchesPieces p.pieces key.toList

/-- An opening bracket as a class of its own, so that it stands for itself. -/
def bracketedChar (c : Char) : List Char := if c = '[' then ['[', '[', ']'] else [c]

def bracketed (p : Pattern) : String := String.ofList (p.glob.toList.flatMap bracketedChar)

end Pattern
end Store
end ShareIndex
