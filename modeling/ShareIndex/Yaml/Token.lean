import ShareIndex.Yaml.Scalar
import ShareIndex.Yaml.Tag

/-!
# ShareIndex.Yaml.Token

The tokens of a YAML text. Indentation is made explicit: where a block collection starts and ends there is a
token of its own. A scalar turns out to be a key only when the colon after it is met; the tokens for the key
and for the start of its mapping are then inserted before it.

* `Token`     — the tokens.
* `Scanner`   — what is left of the text, the tokens so far, and the open collections.
* `Scanner.step` — reads the next token.
* `tokens?`   — the tokens of a text, if it can be divided into tokens.
-/

namespace ShareIndex
namespace Yaml

inductive Token where
  | version (major minor : Nat)
  | tagHandle (handle : String) (start : Tag)
  | documentStart
  | documentEnd
  | blockSequence
  | blockMapping
  | blockEnd
  | openSequence
  | closeSequence
  | openMapping
  | closeMapping
  | entry
  | separator
  | key
  | value
  | alias (name : String)
  | anchor (name : String)
  | tag (handle : String) (suffix : Tag)
  | scalar (text : String) (style : Style)
  deriving DecidableEq, Repr

/-- A place where a key may have started. -/
structure PossibleKey where
  /-- Nothing but a key can stand there. -/
  required : Bool
  /-- How many tokens come before it. -/
  position : Nat
  line : Nat
  column : Nat
  index : Nat

structure Scanner where
  rest : List Spot
  /-- The newest first. -/
  tokens : List Token
  /-- The column of the innermost block collection, -1 outside of all. -/
  indent : Int
  outerIndents : List Int
  keyAllowed : Bool
  key : Option PossibleKey
  /-- The possible keys outside of each open flow collection. -/
  outerKeys : List (Option PossibleKey)

namespace Scanner

def ofSpots (rest : List Spot) : Scanner := ⟨rest, [], -1, [], true, none, []⟩

def inFlow (s : Scanner) : Bool := !s.outerKeys.isEmpty

def push (s : Scanner) (t : Token) : Scanner := { s with tokens := t :: s.tokens }

/-- Inserts a token after the first `position` ones. -/
def insert (s : Scanner) (position : Nat) (t : Token) : Scanner :=
  let newer := s.tokens.length - position
  { s with tokens := s.tokens.take newer ++ t :: s.tokens.drop newer }

/-! ### Keys -/

/-- Gives up the possible key of the current collection. -/
def removeKey (s : Scanner) : Option Scanner :=
  match s.key with
  | some key => if key.required then none else some { s with key := none }
  | none => some s

def saveKey (s : Scanner) (here : Spot) : Option Scanner :=
  if s.keyAllowed then do
    let s ← s.removeKey
    let required := !s.inFlow && decide (s.indent = (here.column : Int))
    return { s with key := some ⟨required, s.tokens.length, here.line, here.column, here.index⟩ }
  else some s

/-- The longest key, in bytes. -/
def maxKey : Nat := 1024

def isStale (here : Spot) (key : PossibleKey) : Bool := key.line < here.line || key.index + maxKey < here.index

/-- A possible key that is too far behind is none. -/
def refreshKey (here : Spot) : Option PossibleKey → Option (Option PossibleKey)
  | none => some none
  | some key => if isStale here key then (if key.required then none else some none) else some (some key)

def refreshKeys (s : Scanner) (here : Spot) : Option Scanner := do
  let key ← refreshKey here s.key
  let outerKeys ← s.outerKeys.mapM (refreshKey here)
  return { s with key, outerKeys }

/-! ### Indentation -/

/-- Opens a block collection at a column to the right of the innermost one. -/
def roll (s : Scanner) (column position : Nat) (t : Token) : Scanner :=
  if s.inFlow then s
  else if s.indent < column then
    { s.insert position t with indent := column, outerIndents := s.indent :: s.outerIndents }
  else s

/-- Closes the given block collections as far as they are to the right of a column. -/
def unrollFrom (s : Scanner) (column : Int) : List Int → Scanner
  | [] => s
  | outer :: others =>
    if column < s.indent then
      unrollFrom { s.push .blockEnd with indent := outer, outerIndents := others } column others
    else s

def unroll (s : Scanner) (column : Int) : Scanner := if s.inFlow then s else s.unrollFrom column s.outerIndents

/-! ### Tokens -/

/-- Skips blanks, comments and line breaks, and a byte order mark at the start of a line. A line break outside of
flow collections allows a key. -/
def skipToToken (inFlow keyAllowed inComment : Bool) : List Spot → Bool × List Spot
  | [] => (keyAllowed, [])
  | s :: rest =>
    if isBreak s.char then skipToToken inFlow (keyAllowed || !inFlow) false rest
    else if inComment then skipToToken inFlow keyAllowed true rest
    else if s.column = 0 ∧ s.char = byteOrderMark then skipToToken inFlow keyAllowed false rest
    else if s.char = ' ' ∨ (s.char = '\t' ∧ (inFlow ∨ !keyAllowed)) then skipToToken inFlow keyAllowed false rest
    else if s.char = '#' then skipToToken inFlow keyAllowed true rest
    else (keyAllowed, s :: rest)

def isNameChar (c : Char) : Bool := c.isAlphanum || c == '_' || c == '-'

def takeChars (p : Char → Bool) : List Spot → List Char × List Spot
  | [] => ([], [])
  | s :: rest =>
    if p s.char then
      let (cs, after) := takeChars p rest
      (s.char :: cs, after)
    else ([], s :: rest)

/-- The name of an anchor or alias, which must end at a blank or at certain indicators. -/
def anchorName (rest : List Spot) : Option (String × List Spot) :=
  let (name, after) := takeChars isNameChar rest
  let ends := match after with
    | [] => true
    | s :: _ => isGap s.char || isBreak s.char || "?:,]\x7d%@\x60".toList.contains s.char
  if name.isEmpty || !ends then none else some (String.ofList name, after)

/-- The characters of the address in a tag; `verbatim` admits a few more. -/
def isAddressChar (verbatim : Bool) (c : Char) : Bool :=
  isNameChar c || ";/?:@&=+$.!~*'()%".toList.contains c || (verbatim && (c == ',' || c == '[' || c == ']'))

def address (verbatim : Bool) (rest : List Spot) : List Char × List Spot := takeChars (isAddressChar verbatim) rest

/-- `!`, `!!` or `!name!`, or the start of a tag without a handle. -/
def tagHandle : List Spot → Option (List Char × List Spot)
  | [] => none
  | s :: rest =>
    if s.char = '!' then
      let (name, after) := takeChars isNameChar rest
      match after with
      | [] => some ('!' :: name, [])
      | t :: more => if t.char = '!' then some ('!' :: name ++ ['!'], more) else some ('!' :: name, after)
    else none

/-- The handle and the suffix of a tag. -/
def tagParts (rest : List Spot) : Option ((String × Tag) × List Spot) :=
  if charAt 0 rest '!' && charAt 1 rest '<' then do
    let (suffix, after) := address true (rest.drop 2)
    if suffix.isEmpty || !charAt 0 after '>' then none
    else return (("", (← Tag.ofAddress? suffix).cut), after.drop 1)
  else do
    let (handle, after) ← tagHandle rest
    let (more, after) := address false after
    if 1 < handle.length ∧ handle.getLast? = some '!' then
      if more.isEmpty then none else return ((String.ofList handle, (← Tag.ofAddress? more).cut), after)
    else
      let suffix := ((Tag.ofString (String.ofList (handle.drop 1))).append (← Tag.ofAddress? more)).cut
      return (if suffix.bytes.isEmpty then ("", .bang) else ("!", suffix), after)

def tag (inFlow : Bool) (rest : List Spot) : Option (Token × List Spot) := do
  let ((handle, suffix), after) ← tagParts rest
  if gapAt 0 after || (inFlow && charAt 0 after ',') then some (.tag handle suffix, after) else none

/-- A number of at most nine digits. -/
def versionNumber (rest : List Spot) : Option (Nat × List Spot) :=
  let (digits, after) := takeChars Char.isDigit rest
  if digits.isEmpty || 9 < digits.length then none
  else some (digits.foldl (fun n c => 10 * n + (c.toNat - '0'.toNat)) 0, after)

def skipGaps (rest : List Spot) : List Spot := (takeChars isGap rest).2

/-- A directive, without the percent sign before it and with the line break after it. -/
def directive (rest : List Spot) : Option (Token × List Spot) := do
  let (name, after) := takeChars isNameChar rest
  if name.isEmpty || !gapAt 0 after then none
  else if name = "YAML".toList then
    let (major, after) ← versionNumber (skipGaps after)
    if !charAt 0 after '.' then none
    else
      let (minor, after) ← versionNumber (after.drop 1)
      return (.version major minor, ← restOfLine false after)
  else if name = "TAG".toList then
    let (handle, after) ← tagHandle (skipGaps after)
    if handle ≠ ['!'] ∧ (handle.length = 1 ∨ handle.getLast? ≠ some '!') then none
    else if !after.head?.any (fun s => isGap s.char) then none
    else
      let (start, after) := address true (skipGaps after)
      if start.isEmpty || !gapAt 0 after then none
      else return (.tagHandle (String.ofList handle) (← Tag.ofAddress? start).cut, ← restOfLine false after)
  else none

/-- Ends all block collections and any possible key. -/
def closeAll (s : Scanner) : Option Scanner := do
  return { ← (s.unroll (-1)).removeKey with keyAllowed := false }

def openFlow (s : Scanner) (here : Spot) (t : Token) (rest : List Spot) : Option Scanner := do
  let s ← s.saveKey here
  return { s.push t with rest, keyAllowed := true, key := none, outerKeys := s.key :: s.outerKeys }

def closeFlow (s : Scanner) (t : Token) (rest : List Spot) : Option Scanner := do
  let s ← s.removeKey
  let s := match s.outerKeys with
    | [] => s
    | key :: outerKeys => { s with key, outerKeys }
  return { s.push t with rest, keyAllowed := false }

/-- An indicator that starts an entry of a block sequence, or a key, where a block collection may start. -/
def blockIndicator (s : Scanner) (here : Spot) (collection t : Token) (rest : List Spot) : Option Scanner := do
  if !s.inFlow && !s.keyAllowed then none
  else
    let s ← (s.roll here.column s.tokens.length collection).removeKey
    return { s.push t with rest, keyAllowed := t = .entry || !s.inFlow }

def valueIndicator (s : Scanner) (here : Spot) (rest : List Spot) : Option Scanner :=
  match s.key with
  | some key =>
    let s := (s.insert key.position .key).roll key.column key.position .blockMapping
    some { s.push .value with rest, key := none, keyAllowed := false }
  | none =>
    if s.inFlow then some { s.push .value with rest, keyAllowed := false }
    else if !s.keyAllowed then none
    else some { (s.roll here.column s.tokens.length .blockMapping).push .value with rest, keyAllowed := true }

/-- A token that may be a key. -/
def simple (s : Scanner) (here : Spot) (read : Option (Token × List Spot)) : Option Scanner := do
  let s ← s.saveKey here
  let (t, rest) ← read
  return { s.push t with rest, keyAllowed := false }

def blockScalar (s : Scanner) (style : Style) (rest : List Spot) : Option Scanner := do
  let s ← s.removeKey
  let (text, rest) ← block (style = .folded) s.indent rest
  return { s.push (.scalar (String.ofList text) style) with rest, keyAllowed := true }

def plainScalar (s : Scanner) (here : Spot) : Option Scanner := do
  let s ← s.saveKey here
  let (text, broken, rest) ← plain s.inFlow (s.indent + 1) [] .none s.rest
  return { s.push (.scalar (String.ofList text) .plain) with rest, keyAllowed := broken }

def quotedScalar (s : Scanner) (here : Spot) (style : Style) (rest : List Spot) : Option Scanner :=
  s.simple here <| (quoted (style = .singleQuoted) [] .none rest).map fun (text, rest) =>
    (.scalar (String.ofList text) style, rest)

/-- Whether a plain scalar starts with `c`. -/
def startsPlain (inFlow : Bool) (c : Char) (rest : List Spot) : Bool :=
  !(isGap c || isBreak c || "-?:,[]\x7b\x7d#&*!|>'\"%@\x60".toList.contains c)
    || (c == '-' && !(rest.head?.any fun s => isGap s.char))
    || (!inFlow && (c == '?' || c == ':') && !gapAt 0 rest)

/-- Reads the token that starts at `here`. -/
def token (s : Scanner) (here : Spot) (rest : List Spot) : Option Scanner :=
  let c := here.char
  if here.column = 0 ∧ c = '%' then do
    let s ← s.closeAll
    let (t, rest) ← directive rest
    return { s.push t with rest }
  else if marksDocument '-' (here :: rest) then do
    return { (← s.closeAll).push .documentStart with rest := rest.drop 2 }
  else if marksDocument '.' (here :: rest) then do
    return { (← s.closeAll).push .documentEnd with rest := rest.drop 2 }
  else if c = '[' then s.openFlow here .openSequence rest
  else if c = '{' then s.openFlow here .openMapping rest
  else if c = ']' then s.closeFlow .closeSequence rest
  else if c = '}' then s.closeFlow .closeMapping rest
  else if c = ',' then do return { (← s.removeKey).push .separator with rest, keyAllowed := true }
  else if c = '-' ∧ gapAt 0 rest then s.blockIndicator here .blockSequence .entry rest
  else if c = '?' ∧ (s.inFlow ∨ gapAt 0 rest) then s.blockIndicator here .blockMapping .key rest
  else if c = ':' ∧ (s.inFlow ∨ gapAt 0 rest) then s.valueIndicator here rest
  else if c = '*' then s.simple here ((anchorName rest).map fun (name, rest) => (.alias name, rest))
  else if c = '&' then s.simple here ((anchorName rest).map fun (name, rest) => (.anchor name, rest))
  else if c = '!' then s.simple here (tag s.inFlow (here :: rest))
  else if c = '|' ∧ !s.inFlow then s.blockScalar .literal rest
  else if c = '>' ∧ !s.inFlow then s.blockScalar .folded rest
  else if c = '\'' then s.quotedScalar here .singleQuoted rest
  else if c = '"' then s.quotedScalar here .doubleQuoted rest
  else if startsPlain s.inFlow c rest then s.plainScalar here
  else none

/-- Reads the next token, if the text has not ended. -/
def step (s : Scanner) : Option Scanner :=
  let (keyAllowed, rest) := skipToToken s.inFlow s.keyAllowed false s.rest
  let s := { s with keyAllowed, rest }
  match rest with
  | [] => s.closeAll
  | here :: rest => do
    let s ← s.refreshKeys here
    (s.unroll here.column).token here rest

/-- Reads all tokens; each takes at least one character. -/
def run : Nat → Scanner → Option Scanner
  | 0, _ => none
  | fuel + 1, s => if s.rest.isEmpty then s.closeAll else s.step.bind (run fuel)

end Scanner

def tokens? (text : List Char) : Option (List Token) := do
  let rest ← spots text
  let s ← Scanner.run (rest.length + 2) (.ofSpots rest)
  return s.tokens.reverse

end Yaml
end ShareIndex
