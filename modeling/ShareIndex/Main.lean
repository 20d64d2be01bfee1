import ShareIndex.CommandLine.Launch
import ShareIndex.CommandLine.Machine
import ShareIndex.Json.Reader

/-!
# ShareIndex.Main

The program on a described machine: the table of its files and variables is read as JSON from the standard
input, the words are those the program is started with.
-/

namespace ShareIndex

open CommandLine (Exit Machine run)

/-- Where the machine keeps the settings of the user. -/
def settingsFolder : FilePath := ⟨"/config/fetchtrack"⟩

def complaint : Exit → String
  | .success _ => ""
  | .failure e => e.message ++ "\n"
  | .misuse => "unknown or incomplete arguments; try --help\n"

/-- The table in a description; a blank one describes a machine with nothing on it. -/
def tableOf? (description : List Char) : Option Datum :=
  if Text.isBlankText description then some (.table []) else Json.read? description

def exitOn (words : List String) (description : String) : Exit :=
  match (tableOf? description.toList).bind (Machine.ofDatum? (some settingsFolder)) with
  | none => .misuse
  | some machine => (run machine.environment words machine.files).1

end ShareIndex

def main (words : List String) : IO UInt32 := do
  let description ← (← IO.getStdin).readToEnd
  let exit := ShareIndex.exitOn words description
  let output ← IO.getStdout
  output.write ⟨exit.output.toArray⟩
  (← IO.getStderr).putStr (ShareIndex.complaint exit)
  return exit.code
