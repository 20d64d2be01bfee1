import ShareIndex.Text.Blank
import ShareIndex.Text.Identifier

/-!
# ShareIndex.Template.Word

A template as a list of pieces: text, and tags with the words between their delimiters. Expressions stand in
double braces, statements in braces with percent signs, comments in braces with number signs. A minus sign next
to a delimiter takes away the blanks on that side of the tag.

Digits are an index or a numeral: a name and a point lead to an index, a text in quotes and the signs that part or
group values lead to a numeral, and nothing else changes what comes.

* `Word`    — names, numerals, texts in quotes, and signs.
* `Piece`   — text, an expression or a statement.
* `pieces?` — the pieces of a template; a delimiter without its partner has none.
-/

namespace ShareIndex
namespace Template

inductive Word where
  | name (value : String)
  | numeral (value : List Char)
  /-- The digits after a point. -/
  | index (value : List Char)
  | quoted (value : List Char)
  | sign (c : Char)
  /-- A question mark and a point. -/
  | optionalPoint
  deriving DecidableEq, Repr

inductive Kind where
  | expression
  | statement
  | comment
  deriving DecidableEq, Repr

inductive Piece where
  | text (value : List Char)
  | expression (words : List Word)
  | statement (words : List Word)
  deriving DecidableEq, Repr

def openBrace : Char := '{'

def closeBrace : Char := '}'

/-- The second character of an opening delimiter, and the first of a closing one. -/
def Kind.mark : Kind → Char × Char
  | expression => (openBrace, closeBrace)
  | statement => ('%', '%')
  | comment => ('#', '#')

def Kind.all : List Kind := [.expression, .statement, .comment]

/-- An opening delimiter at the start of the text. -/
def opening? : List Char → Option (Kind × List Char)
  | a :: b :: rest => if a = openBrace then (Kind.all.find? (·.mark.1 = b)).map (·, rest) else none
  | _ => none

/-- A closing delimiter at the start of the text, without its minus sign. -/
def bareClosing? : List Char → Option (Kind × List Char)
  | a :: b :: rest => if b = closeBrace then (Kind.all.find? (·.mark.2 = a)).map (·, rest) else none
  | _ => none

/-- A closing delimiter at the start of the text, and whether it takes away blanks. -/
def closing? : List Char → Option (Kind × Bool × List Char)
  | '-' :: rest => (bareClosing? rest).map fun (kind, after) => (kind, true, after)
  | cs => (bareClosing? cs).map fun (kind, after) => (kind, false, after)

/-! ### Words -/

def keywords : List String :=
  ["if", "not", "else", "endif", "for", "in", "endfor", "include", "with", "as", "endwith", "true", "false"]

def isSpace (c : Char) : Bool := c == ' ' || c == '\t' || c == '\n' || c == '\r'

def isNameStart (c : Char) : Bool := c == '_' || Text.isIdentifierStart c

def isNumeralChar (c : Char) : Bool := c == '.' || c == '_' || c == '+' || c == '-' || c.isAlphanum

/-- The rest of a text in quotes as it is written. It ends at the first quotation mark that does not follow a
backslash, and on its line. -/
def untilQuote (escaped : Bool) : List Char → Option (List Char × List Char)
  | [] => none
  | c :: rest =>
    if c = '\n' ∨ c = '\r' then none
    else if c = '"' ∧ !escaped then some ([], rest)
    else do
      let (cs, after) ← untilQuote (c == '\\') rest
      return (c :: cs, after)

/-- A written text with its escapes replaced. A quotation mark counts only when it is escaped. -/
def unescape? : List Char → Option (List Char)
  | [] => some []
  | '"' :: rest => unescape? rest
  | '\\' :: c :: rest => do
    let e ← match c with
      | 'n' => some '\n'
      | 'r' => some '\r'
      | 't' => some '\t'
      | '\\' => some '\\'
      | '"' => some '"'
      | _ => none
    return e :: (← unescape? rest)
  | '\\' :: [] => none
  | c :: rest => (unescape? rest).map (c :: ·)

def signs : List Char := ['.', '|', ',', ':', '+', '-', '(', ')', '[', ']', openBrace, closeBrace]

/-- The first word of a text that does not start with a blank. `indexed` says that digits are an index. -/
def word? (indexed : Bool) : List Char → Option (Word × List Char)
  | [] => none
  | '?' :: '.' :: rest => some (.optionalPoint, rest)
  | '"' :: rest => do
    let (written, after) ← untilQuote false rest
    return (.quoted (← unescape? written), after)
  | c :: rest =>
    if signs.contains c then some (.sign c, rest)
    else if isNameStart c then
      some (.name (String.ofList (c :: rest.takeWhile Text.isIdentifierContinue)),
        rest.dropWhile Text.isIdentifierContinue)
    else if c.isDigit then
      let isPart := if indexed then Char.isDigit else isNumeralChar
      let digits := c :: rest.takeWhile isPart
      some (if indexed then .index digits else .numeral digits, rest.dropWhile isPart)
    else none

/-- Whether digits after a word are an index; `indexed` says whether the word itself might have been one. -/
def Word.leadsToIndex (indexed : Bool) : Word → Bool
  | .name n => indexed || !keywords.contains n
  | .sign '.' => true
  | .optionalPoint => true
  | .quoted _ => false
  | .sign c => indexed && [openBrace, '['].contains c
  | .numeral _ => indexed
  | .index _ => indexed

/-- The words of a tag up to its closing delimiter, whether that takes away blanks, and what follows. -/
def words? (kind : Kind) : Nat → Bool → List Char → Option (List Word × Bool × List Char)
  | 0, _, _ => none
  | fuel + 1, indexed, cs =>
    match cs with
    | [] => none
    | c :: rest =>
      if isSpace c then words? kind fuel indexed rest
      else
        match closing? (c :: rest) with
        | some (closed, trims, after) => if closed = kind then some ([], trims, after) else none
        | none =>
          if (opening? (c :: rest)).isSome then none
          else do
            let (w, after) ← word? indexed (c :: rest)
            let (ws, trims, after) ← words? kind fuel (w.leadsToIndex indexed) after
            return (w :: ws, trims, after)

/-! ### Pieces -/

/-- What follows the delimiter that closes a comment. No other delimiter stands in it. -/
def afterComment : List Char → Option (Bool × List Char)
  | [] => none
  | c :: rest =>
    match closing? (c :: rest) with
    | some (closed, trims, after) => if closed = .comment then some (trims, after) else none
    | none => if (opening? (c :: rest)).isSome then none else afterComment rest

/-- What follows a comment that is opened with `last` as its last character. That character may belong to the
closing delimiter too; otherwise the comment is not empty. -/
def comment? (last : Char) (cs : List Char) : Option (Bool × List Char) :=
  if (closing? (last :: cs)).isSome then afterComment (last :: cs)
  else if (closing? cs).isSome then none
  else afterComment cs

/-- The text before the first delimiter, and the rest. -/
def textBefore : List Char → List Char × List Char
  | [] => ([], [])
  | c :: rest =>
    if (opening? (c :: rest)).isSome || (bareClosing? (c :: rest)).isSome then ([], c :: rest)
    else
      let (cs, after) := textBefore rest
      (c :: cs, after)

def trimmed (start finish : Bool) (cs : List Char) : List Char :=
  let cs := if start then cs.dropWhile Text.isBlank else cs
  if finish then Text.dropEndWhile Text.isBlank cs else cs

/-- A minus sign after an opening delimiter. -/
def takesBlanks : List Char → Bool × List Char
  | '-' :: rest => (true, rest)
  | rest => (false, rest)

/-- What follows a tag. A brace next to it would make a closing delimiter with the one that ends the tag. -/
def afterTag? (cs : List Char) : Option (List Char) :=
  if (bareClosing? (closeBrace :: cs)).isSome then none else some cs

/-- There is no piece between tags that stand next to each other. -/
def textPiece (cs : List Char) : List Piece := if cs.isEmpty then [] else [.text cs]

/-- The pieces of a template; `trims` says that the tag before it takes away blanks. -/
def piecesFrom : Nat → Bool → List Char → Option (List Piece)
  | 0, _, _ => none
  | fuel + 1, trims, cs =>
    let (before, rest) := textBefore cs
    match rest with
    | [] => some (textPiece (trimmed trims false before))
    | rest => do
      let (kind, rest) ← opening? rest
      let (trimsBefore, rest) := takesBlanks rest
      let text := textPiece (trimmed trims trimsBefore before)
      match kind with
      | .comment =>
        let (trims, rest) ← comment? (if trimsBefore then '-' else kind.mark.1) rest
        return text ++ (← piecesFrom fuel trims (← afterTag? rest))
      | .expression =>
        let (ws, trims, rest) ← words? kind (rest.length + 1) false rest
        return text ++ .expression ws :: (← piecesFrom fuel trims (← afterTag? rest))
      | .statement =>
        let (ws, trims, rest) ← words? kind (rest.length + 1) false rest
        return text ++ .statement ws :: (← piecesFrom fuel trims (← afterTag? rest))

def pieces? (source : String) : Option (List Piece) := piecesFrom (source.length + 1) false source.toList

end Template
end ShareIndex
