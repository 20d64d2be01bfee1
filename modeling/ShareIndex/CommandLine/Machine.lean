import ShareIndex.CommandLine.Session
import ShareIndex.Datum

/-!
# ShareIndex.CommandLine.Machine

What the program starts on, as data: a table of files by path and a table of variables by name.

* `Machine`          — the files and the environment.
* `Machine.ofDatum?` — reads the two tables; folders are made as files need them.
-/

namespace ShareIndex
namespace CommandLine

structure Machine where
  files : FileTree
  environment : Environment

namespace Machine

/-- The entries of a table of texts; a table that is missing has none. -/
def textsOf? (d : Datum) (key : String) : Option (List (String × String)) :=
  match d.entry? key with
  | none => some []
  | some (.table entries) => entries.mapM fun (name, value) => (Config.text? value).map (name, ·)
  | some _ => none

/-- Writes a file, together with the folders on the way to it. -/
def plant? (files : FileTree) (path : FilePath) (text : String) : Option FileTree :=
  match files.makeFolders path.folder with
  | (.error _, _) => none
  | (.ok (), files) => (files.write path (bytes text)).toOption

def ofDatum? (userFolder : Option FilePath) (d : Datum) : Option Machine := do
  let files ← (← textsOf? d "files").foldlM (fun files (path, text) => plant? files ⟨path⟩ text) ∅
  return ⟨files, ⟨← textsOf? d "variables", userFolder⟩⟩

end Machine
end CommandLine
end ShareIndex
