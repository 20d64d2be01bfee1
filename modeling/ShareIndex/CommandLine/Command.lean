import ShareIndex.FilePath

/-!
# ShareIndex.CommandLine.Command

What the program can be asked for.

* `Job`     — what is done once.
* `Command` — a job, or to keep watching.
* `Verb`    — the words that commands begin with, and how many operands follow them.
* `Switch`  — the options, by name and by letter; `Switch.known` says where each one is known.
-/

namespace ShareIndex
namespace CommandLine

inductive Job where
  | index
  | dump (output : Option FilePath)
  | page (download : String)
  | counters (download : String)
  | hit (file : String)
  deriving DecidableEq, Repr

inductive Command where
  | once (job : Job)
  | watch
  deriving DecidableEq, Repr

inductive Verb where
  | index
  | dump
  | watch
  | page
  | counters
  | hit
  deriving DecidableEq, Repr

namespace Verb

def all : List Verb := [index, dump, watch, page, counters, hit]

def name : Verb → String
  | index => "index"
  | dump => "dump"
  | watch => "watch"
  | page => "page"
  | counters => "counters"
  | hit => "hit"

def ofName? (word : String) : Option Verb := all.find? fun v => v.name = word

/-- How many operands a command takes; it needs all of them. -/
def operands : Verb → Nat
  | index | dump | watch => 0
  | page | counters | hit => 1

end Verb

inductive Switch where
  | config
  | output
  | help
  | version
  deriving DecidableEq, Repr

namespace Switch

def name : Switch → String
  | config => "config"
  | output => "output"
  | help => "help"
  | version => "version"

def letter : Switch → Char
  | config => 'c'
  | output => 'o'
  | help => 'h'
  | version => 'V'

def takesValue : Switch → Bool
  | config | output => true
  | help | version => false

/-- The options before the first word of a command, and those after it. -/
def known : Option Verb → List Switch
  | none => [config, help, version]
  | some .dump => [output, help]
  | some _ => [help]

def ofName? (verb : Option Verb) (word : List Char) : Option Switch :=
  (known verb).find? fun s => s.name.toList = word

def ofLetter? (verb : Option Verb) (letter : Char) : Option Switch :=
  (known verb).find? fun s => s.letter = letter

end Switch

/-- The word that asks for help on a command. -/
def helpName : String := "help"

/-- What help is asked for. -/
inductive Topic where
  | program
  | command (verb : Verb)
  | help
  deriving DecidableEq, Repr

namespace Topic

/-- The topic of an option for help that stands before or after the first word of a command. -/
def ofVerb : Option Verb → Topic
  | none => program
  | some verb => command verb

def ofNames? : List String → Option Topic
  | [] => some program
  | [name] => if name = helpName then some help else (Verb.ofName? name).map command
  | _ => none

end Topic
end CommandLine
end ShareIndex
