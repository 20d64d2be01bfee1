import ShareIndex.CommandLine.Command

/-!
# ShareIndex.CommandLine.Arguments

Reads the words that the program is started with.

* `Word`       — the forms of a word: an option by its name or its letter, `--`, or a plain word.
* `Given`      — the values an option has been given; it may have one value, which is not empty.
* `Draft`      — what the words up to here have said.
* `Draft.read` — takes the next word; an option for help or for the version ends the reading.
* `parse`      — the request that all words make.
-/

namespace ShareIndex
namespace CommandLine

/-! ### Words -/

inductive Word where
  | close
  | named (name : List Char) (value : Option (List Char))
  | lettered (letter : Char) (rest : List Char)
  | plain
  deriving DecidableEq, Repr

/-- The part of an option after the first `=`, if there is one. -/
def valueAfter? (option : List Char) : Option (List Char) :=
  match option.dropWhile (· != '=') with
  | [] => none
  | _ :: value => some value

/-- A single `-` is a plain word. -/
def Word.ofChars : List Char → Word
  | ['-', '-'] => .close
  | '-' :: '-' :: option => .named (option.takeWhile (· != '=')) (valueAfter? option)
  | '-' :: letter :: rest => .lettered letter rest
  | _ => .plain

/-- The value that is written behind the letter of an option, with or without a `=`. -/
def valueBehindLetter? : List Char → Option (List Char)
  | [] => none
  | '=' :: value => some value
  | value => some value

/-! ### Options with values -/

structure Given where
  values : List String
  /-- Whether the next word is a value. -/
  waiting : Bool
  deriving DecidableEq, Repr

namespace Given

def empty : Given := ⟨[], false⟩

def await (g : Given) : Given := { g with waiting := true }

def add (g : Given) (value : String) : Given := ⟨g.values ++ [value], false⟩

/-- Whether the option may have been given like this. -/
def isFit (g : Given) : Bool := !g.waiting && g.values.length ≤ 1 && !g.values.contains ""

def path? (g : Given) : Option FilePath := g.values.head?.map FilePath.mk

end Given

/-! ### Drafts -/

/-- Why words make no request. -/
inductive Ending where
  | misuse
  | help (topic : Topic)
  | version
  deriving DecidableEq, Repr

structure Draft where
  config : Given
  verb : Option Verb
  output : Given
  operands : List String
  /-- Whether there are no more options. -/
  closed : Bool
  /-- The words after the one that asks for help. -/
  helpWords : Option (List String)
  deriving DecidableEq, Repr

namespace Draft

def empty : Draft := ⟨.empty, none, .empty, [], false, none⟩

/-- The option with a value that is known here. -/
def given (d : Draft) : Given := if d.verb = none then d.config else d.output

def setGiven (d : Draft) (g : Given) : Draft := if d.verb = none then { d with config := g } else { d with output := g }

def operand (d : Draft) (word : String) : Except Ending Draft :=
  match d.verb with
  | none => .error .misuse
  | some verb =>
    if d.operands.length < verb.operands then .ok { d with operands := d.operands ++ [word] } else .error .misuse

def plain (d : Draft) (word : String) : Except Ending Draft :=
  if d.given.waiting then .ok (d.setGiven (d.given.add word))
  else if d.verb.isSome then d.operand word
  else if word = helpName then .ok { d with helpWords := some [] }
  else
    match Verb.ofName? word with
    | none => .error .misuse
    | some verb => .ok { d with verb := some verb }

/-- An option that takes a value, which is the next word when none is written with the option. -/
def option (d : Draft) : Option (List Char) → Except Ending Draft
  | none => .ok (d.setGiven d.given.await)
  | some value =>
    let g := d.given.add (String.ofList value)
    if g.isFit then .ok (d.setGiven g) else .error .misuse

/-- How an option without a value ends the reading. -/
def ending (d : Draft) (s : Switch) : Ending := if s = .version then .version else .help (.ofVerb d.verb)

def named (d : Draft) (name : List Char) (value : Option (List Char)) : Except Ending Draft :=
  match Switch.ofName? d.verb name with
  | none => .error .misuse
  | some s =>
    if !d.given.isFit then .error .misuse
    else if s.takesValue then d.option value
    else if value.isSome then .error .misuse
    else .error (d.ending s)

def lettered (d : Draft) (letter : Char) (rest : List Char) : Except Ending Draft :=
  match Switch.ofLetter? d.verb letter with
  | none => .error .misuse
  | some s =>
    if !d.given.isFit then .error .misuse
    else if s.takesValue then d.option (valueBehindLetter? rest)
    else .error (d.ending s)

def readOpen (d : Draft) (word : String) : Except Ending Draft :=
  match Word.ofChars word.toList with
  | .close => .ok { d with closed := true }
  | .named name value => d.named name value
  | .lettered letter rest => d.lettered letter rest
  | .plain => d.plain word

def read (d : Draft) (word : String) : Except Ending Draft :=
  match d.helpWords with
  | some words => .ok { d with helpWords := some (words ++ [word]) }
  | none => if d.closed then d.operand word else d.readOpen word

def command? (d : Draft) : Option Command :=
  match d.verb, d.operands with
  | some .index, [] => some (.once .index)
  | some .dump, [] => some (.once (.dump d.output.path?))
  | some .watch, [] => some .watch
  | some .page, [download] => some (.once (.page download))
  | some .counters, [download] => some (.once (.counters download))
  | some .hit, [file] => some (.once (.hit file))
  | _, _ => none

/-- The file with settings that an option or else the fallback names; an empty name is none. -/
def config? (d : Draft) (fallback : Option String) : Except Ending (Option FilePath) :=
  match d.config.path?, fallback with
  | some path, _ => .ok (some path)
  | none, none => .ok none
  | none, some name => if name = "" then .error .misuse else .ok (some ⟨name⟩)

end Draft

/-! ### Requests -/

structure Request where
  /-- The file with settings that replaces those of the user. -/
  config : Option FilePath
  command : Command
  deriving DecidableEq, Repr

def Draft.helpEnding (words : List String) : Ending :=
  match Topic.ofNames? words with
  | none => .misuse
  | some topic => .help topic

/-- The request of a draft to which no more words come. -/
def Draft.request (d : Draft) (fallback : Option String) : Except Ending Request :=
  match d.helpWords, d.command? with
  | some words, _ => .error (helpEnding words)
  | none, none => .error .misuse
  | none, some command =>
    if d.output.isFit && d.config.isFit then (d.config? fallback).map (⟨·, command⟩) else .error .misuse

/-- The request of all words; `fallback` names a file with settings when no option does. -/
def parse (words : List String) (fallback : Option String) : Except Ending Request :=
  match words.foldlM Draft.read Draft.empty with
  | .error ending => .error ending
  | .ok d => d.request fallback

end CommandLine
end ShareIndex
