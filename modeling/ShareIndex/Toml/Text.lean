import ShareIndex.Text.Hexadecimal

/-!
# ShareIndex.Toml.Text

Texts, keys and what may stand between the parts of a document.

* `skipBlanks`, `endOfLine?`, `skipLines` — blanks, comments and line breaks.
* `quoted?`                                — a text in quotes of either kind, on one line or on several.
* `key?`                                   — the parts of a key, which are divided by dots.
-/

namespace ShareIndex
namespace Toml

/-! ### Blanks, comments and line breaks -/

def isBlank (c : Char) : Bool := c == ' ' || c == '\t'

def skipBlanks (cs : List Char) : List Char := cs.dropWhile isBlank

/-- Control characters other than the tab stand in no comment and in no text. -/
def isVisible (c : Char) : Bool := c == '\t' || (32 ≤ c.toNat && c.toNat != 127)

def lineBreak? : List Char → Option (List Char)
  | '\n' :: rest => some rest
  | '\r' :: '\n' :: rest => some rest
  | _ => none

/-- What follows a comment, if one begins here. -/
def skipComment (cs : List Char) : List Char := if cs.head? = some '#' then cs.dropWhile isVisible else cs

/-- What follows the rest of a line on which nothing but a comment may be left. -/
def endOfLine? (cs : List Char) : Option (List Char) :=
  match skipComment (skipBlanks cs) with
  | [] => some []
  | rest => lineBreak? rest

/-- Skips blanks, line breaks and comments; `fuel` bounds the number of lines. -/
def skipLinesWithin (fuel : Nat) (cs : List Char) : List Char :=
  match fuel with
  | 0 => cs
  | fuel + 1 =>
    let rest := skipBlanks cs
    match lineBreak? (skipComment rest) with
    | some next => skipLinesWithin fuel next
    | none => rest

def skipLines (cs : List Char) : List Char := skipLinesWithin cs.length cs

/-! ### Texts -/

def escaped? : Char → Option Char
  | 'b' => some '\x08'
  | 't' => some '\t'
  | 'n' => some '\n'
  | 'f' => some '\x0c'
  | 'r' => some '\r'
  | '"' => some '"'
  | '\\' => some '\\'
  | _ => none

def numbered? (digits : Nat) (cs : List Char) : Option (Char × List Char) :=
  if cs.length < digits then none
  else ((Hexadecimal.ofDigits? (cs.take digits)).bind Hexadecimal.character?).map (·, cs.drop digits)

/-- The character that stands after a backslash, and what follows it. -/
def escape? : List Char → Option (Char × List Char)
  | [] => none
  | 'u' :: cs => numbered? 4 cs
  | 'U' :: cs => numbered? 8 cs
  | c :: cs => (escaped? c).map (·, cs)

/-- The rest of a text on one line; `fuel` bounds the number of characters. -/
def onLine? (quote : Char) : (fuel : Nat) → List Char → Option (List Char × List Char)
  | 0, _ => none
  | _, [] => none
  | fuel + 1, c :: cs => do
    if c = quote then some ([], cs)
    else if c = '\\' ∧ quote = '"' then
      let (c, rest) ← escape? cs
      let (text, rest) ← onLine? quote fuel rest
      return (c :: text, rest)
    else if isVisible c then
      let (text, rest) ← onLine? quote fuel cs
      return (c :: text, rest)
    else none

/-- Skips blanks and line breaks. -/
def skipEmptyLines : List Char → List Char
  | '\r' :: '\n' :: rest => skipEmptyLines rest
  | c :: rest => if isBlank c || c == '\n' then skipEmptyLines rest else c :: rest
  | [] => []

/-- What follows a backslash that joins two lines. -/
def joinedLine? (cs : List Char) : Option (List Char) := (lineBreak? (skipBlanks cs)).map skipEmptyLines

/-- The rest of a text on several lines. The last quotes end it; up to two may stand before those. -/
def onLines? (quote : Char) : (fuel : Nat) → List Char → Option (List Char × List Char)
  | 0, _ => none
  | _, [] => none
  | fuel + 1, c :: cs => do
    if c = quote then
      let quotes := (c :: cs).takeWhile (· == quote)
      let rest := (c :: cs).drop quotes.length
      if quotes.length < 3 then
        let (text, rest) ← onLines? quote fuel rest
        return (quotes ++ text, rest)
      else if quotes.length ≤ 5 then some (quotes.drop 3, rest)
      else none
    else if c = '\\' ∧ quote = '"' then
      match joinedLine? cs with
      | some rest => onLines? quote fuel rest
      | none =>
        let (c, rest) ← escape? cs
        let (text, rest) ← onLines? quote fuel rest
        return (c :: text, rest)
    else
      match lineBreak? (c :: cs) with
      | some rest =>
        let (text, rest) ← onLines? quote fuel rest
        return ('\n' :: text, rest)
      | none =>
        if isVisible c then
          let (text, rest) ← onLines? quote fuel cs
          return (c :: text, rest)
        else none

/-- The text after an opening quote that is followed by `cs`; a line break right after three quotes does not count. -/
def quoted? (quote : Char) (cs : List Char) : Option (List Char × List Char) :=
  match cs with
  | a :: b :: rest =>
    if a = quote ∧ b = quote then onLines? quote (rest.length + 1) ((lineBreak? rest).getD rest)
    else onLine? quote (cs.length + 1) cs
  | _ => onLine? quote (cs.length + 1) cs

/-! ### Keys -/

def isBare (c : Char) : Bool := c.isAlphanum || c == '_' || c == '-'

/-- One part of a key. -/
def keyPart? (cs : List Char) : Option (String × List Char) :=
  match cs with
  | [] => none
  | c :: rest =>
    if c = '"' ∨ c = '\'' then (onLine? c (rest.length + 1) rest).map fun (text, rest) => (String.ofList text, rest)
    else
      let part := cs.takeWhile isBare
      if part.isEmpty then none else some (String.ofList part, cs.dropWhile isBare)

/-- The parts of a key, of which there are at most `fuel`. -/
def keyWithin? : (fuel : Nat) → List Char → Option (List String × List Char)
  | 0, _ => none
  | fuel + 1, cs => do
    let (part, rest) ← keyPart? (skipBlanks cs)
    match skipBlanks rest with
    | '.' :: rest =>
      let (parts, rest) ← keyWithin? fuel rest
      return (part :: parts, rest)
    | rest => return ([part], rest)

/-- Values may be nested, and keys may be divided, less often than this. -/
def maxDepth : Nat := 80

def key? (cs : List Char) : Option (List String × List Char) := keyWithin? (maxDepth - 1) cs

end Toml
end ShareIndex
