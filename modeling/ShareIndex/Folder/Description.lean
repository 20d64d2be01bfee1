import ShareIndex.OrderedMap
import ShareIndex.Text.Blank
import ShareIndex.Yaml.Schema

/-!
# ShareIndex.Folder.Description

What a folder says about itself: a text, with an optional block of settings before it. The block stands
between two fences, lines of three hyphens, the first of which starts the text.

* `splitFrontMatter`       — the block, if there is one, and the text after it.
* `FrontMatter`            — the settings; `FrontMatter.ofDocument?` reads them from YAML.
* `Description.parse?`     — the whole description; it fails when the settings cannot be read.
-/

namespace ShareIndex
namespace Folder

/-! ### Fences -/

def fence : List Char := ['-', '-', '-']

/-- Each line with its line feed; the last one may lack it. -/
def inclusiveLines : List Char → List (List Char)
  | [] => []
  | c :: cs =>
    if c = '\n' then [c] :: inclusiveLines cs
    else
      match inclusiveLines cs with
      | [] => [[c]]
      | line :: lines => (c :: line) :: lines

def isLineEnd (c : Char) : Bool := c == '\r' || c == '\n'

def isFence (line : List Char) : Bool := Text.dropEndWhile isLineEnd line == fence

/-- The lines before the first fence, and what follows it. -/
def untilFence : List (List Char) → Option (List Char × List Char)
  | [] => none
  | line :: lines =>
    if isFence line then some ([], lines.flatten)
    else (untilFence lines).map fun (front, body) => (line ++ front, body)

/-- What follows a fence at the start of a text. -/
def afterOpeningFence? : List Char → Option (List Char)
  | '-' :: '-' :: '-' :: '\r' :: '\n' :: rest => some rest
  | '-' :: '-' :: '-' :: '\n' :: rest => some rest
  | _ => none

/-- A block without a closing fence is part of the text. -/
def splitFrontMatter (text : List Char) : Option (List Char) × List Char :=
  match (afterOpeningFence? text).bind fun rest => untilFence (inclusiveLines rest) with
  | some (front, body) => (some front, body)
  | none => (none, text)

/-! ### Settings -/

structure FrontMatter where
  title : Option String
  enabled : Bool
  /-- Descriptions of files, by their names. -/
  files : OrderedMap String String

def FrontMatter.default : FrontMatter := ⟨none, true, ∅⟩

namespace FrontMatter

open Yaml (Document Node nullTag boolTag isNull truth?)

/-- A text that may be missing: a plain scalar that is empty or null. -/
def optionalText? (d : Document) (n : Node) : Option (Option String) := do
  match ← d.follow? n with
  | .scalar tag text style =>
    if style ≠ .plain then some (some text)
    else if tag = some nullTag then (if isNull text then some none else none)
    else if tag.isSome then some (some text)
    else if text = "" ∨ isNull text then some none
    else some (some text)
  | _ => none

/-- Only plain scalars are truth values, and literal blocks that are said to be. -/
def boolean? (d : Document) (n : Node) : Option Bool := do
  match ← d.follow? n with
  | .scalar tag text style =>
    if style = .plain ∨ (style = .literal ∧ tag = some boolTag) then truth? text else none
  | _ => none

/-- An empty plain scalar is an empty mapping. -/
def pairs? (d : Document) (n : Node) : Option (List (Node × Node)) := do
  match ← d.follow? n with
  | .mapping _ pairs => some pairs
  | .scalar _ "" .plain => some []
  | _ => none

def texts? (d : Document) (n : Node) : Option (OrderedMap String String) := do
  let entries ← (← pairs? d n).mapM fun (key, value) => do return (← d.text? key, ← d.text? value)
  return .ofList entries

/-- Settings that have been read, each at most once. -/
structure Partial where
  title : Option (Option String)
  enabled : Option Bool
  files : Option (OrderedMap String String)

/-- Unknown settings are ignored; a known one must not come twice. -/
def Partial.add (d : Document) (p : Partial) (pair : Node × Node) : Option Partial := do
  match ← d.text? pair.1 with
  | "title" => if p.title.isSome then none else return { p with title := some (← optionalText? d pair.2) }
  | "enabled" => if p.enabled.isSome then none else return { p with enabled := some (← boolean? d pair.2) }
  | "files" => if p.files.isSome then none else return { p with files := some (← texts? d pair.2) }
  | _ => return p

def ofDocument? (d : Document) : Option FrontMatter :=
  if d.events.isEmpty then some .default
  else do
    let p ← (← pairs? d (← d.root?)).foldlM (Partial.add d) ⟨none, none, none⟩
    return ⟨p.title.getD none, p.enabled.getD true, p.files.getD ∅⟩

end FrontMatter

/-! ### Descriptions -/

structure Description where
  front : FrontMatter
  /-- The text without blanks at its ends, unless nothing remains. -/
  body : Option String

namespace Description

def empty : Description := ⟨.default, none⟩

def dropByteOrderMark (cs : List Char) : List Char := if cs.head? = some '\ufeff' then cs.tail else cs

def frontMatter? (front : List Char) : Option FrontMatter :=
  if Text.isBlankText front then some .default
  else (Yaml.Document.ofText? (String.ofList front)).bind FrontMatter.ofDocument?

def bodyOf (body : List Char) : Option String :=
  match Text.trim body with
  | [] => none
  | cs => some (String.ofList cs)

def parse? (text : String) : Option Description := do
  let (front, body) := splitFrontMatter (dropByteOrderMark text.toList)
  let front ← match front with
    | none => some .default
    | some front => frontMatter? front
  return ⟨front, bodyOf body⟩

end Description
end Folder
end ShareIndex
