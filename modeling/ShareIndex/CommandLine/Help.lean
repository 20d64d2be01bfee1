import ShareIndex.CommandLine.Command
import ShareIndex.Text.Segment
import ShareIndex.Text.Terminal

/-!
# ShareIndex.CommandLine.Help

The texts that options for help and for the version print.

* `Section` — a title over rows of two columns.
* `help`    — the text on a topic.
* `version` — the name of the program with its version.
-/

namespace ShareIndex
namespace CommandLine

def programName : String := "fetchtrack"

def version : String := programName ++ " 0.1.0-beta\n"

/-- The variable that names a file with settings. -/
def configVariable : String := "FETCHTRACK_CONFIG"

/-! ### Layout -/

structure Section where
  title : String
  /-- Terms and what they mean. -/
  rows : List (String × String)
  deriving DecidableEq, Repr

def blanks (n : Nat) : String := String.ofList (List.replicate n ' ')

/-- A row; the lines of its text after the first one begin in the second column. -/
def renderRow (column : Nat) (row : String × String) : String :=
  "  " ++ Text.Terminal.bold row.1 ++ blanks (column - row.1.length) ++ "  " ++
    ("\n" ++ blanks (column + 4)).intercalate ((Text.segments '\n' row.2.toList).map String.ofList) ++ "\n"

/-- The second column begins two blanks after the longest term. -/
def Section.render (s : Section) : String :=
  let column := (s.rows.map (·.1.length)).foldl max 0
  Text.Terminal.bold (s.title ++ ":") ++ "\n" ++ String.join (s.rows.map (renderRow column))

structure Sheet where
  about : String
  usage : String
  sections : List Section
  deriving DecidableEq, Repr

def Sheet.render (s : Sheet) : String :=
  s.about ++ "\n\n" ++ Text.Terminal.bold "Usage:" ++ " " ++ Text.Terminal.bold programName ++ " " ++ s.usage ++ "\n" ++
    String.join (s.sections.map fun part => "\n" ++ part.render)

/-! ### Content -/

def Verb.about : Verb → String
  | index => "Scan the work directory once and publish it as the new generation"
  | dump => "Write every live download with its file counters as JSON"
  | watch => "Keep running: index on an interval or SIGUSR1, dump on SIGUSR2"
  | page => "Print the rendered page of a download"
  | counters => "Print the per-file counters of a download"
  | hit => "Count one download of a file and print its url"

def helpAbout : String := "Print this message or the help of the given subcommand(s)"

/-- How an option is written, with a name for its value. -/
def Switch.term (s : Switch) : String :=
  "-" ++ s.letter.toString ++ ", --" ++ s.name ++ (if s.takesValue then " <" ++ s.name.toUpper ++ ">" else "")

/-- What an option means; `fallback` is the value of the variable that stands in for it. -/
def Switch.about (fallback : Option String) : Switch → String
  | config => "Config file (TOML, YAML or JSON); defaults to the user config directory [env: " ++ configVariable ++ "="
      ++ fallback.getD "" ++ "]"
  | output => "Destination file; \x60-\x60 writes to stdout"
  | help => "Print help"
  | version => "Print version"

def optionsOf (verb : Option Verb) (fallback : Option String) : Section :=
  ⟨"Options", (Switch.known verb).map fun s => (s.term, s.about fallback)⟩

def programSheet (fallback : Option String) : Sheet :=
  { about := "Index shared download folders and track file downloads"
    usage := "[OPTIONS] <COMMAND>"
    sections := [⟨"Commands", Verb.all.map (fun v => (v.name, v.about)) ++ [(helpName, helpAbout)]⟩,
      optionsOf none fallback] }

def operandTerm : String := "<ID>"

def commandUsage (v : Verb) : String :=
  v.name ++ (if (Switch.known (some v)).any Switch.takesValue then " [OPTIONS]" else "") ++
    String.join (List.replicate v.operands (" " ++ operandTerm))

def operandSections (v : Verb) : List Section :=
  if v.operands = 0 then [] else [⟨"Arguments", List.replicate v.operands (operandTerm, "")⟩]

def commandSheet (v : Verb) : Sheet :=
  ⟨v.about, commandUsage v, operandSections v ++ [optionsOf (some v) none]⟩

def helpSheet : Sheet :=
  ⟨helpAbout, helpName ++ " [COMMAND]...", [⟨"Arguments", [("[COMMAND]...", "Print help for the subcommand(s)")]⟩]⟩

/-- The sheet on a topic. -/
def sheet (fallback : Option String) : Topic → Sheet
  | .program => programSheet fallback
  | .command verb => commandSheet verb
  | .help => helpSheet

/-- The text on a topic, as it is written where no terminal shows it. -/
def help (fallback : Option String) (topic : Topic) : String := Text.Terminal.plain (sheet fallback topic).render

end CommandLine
end ShareIndex
