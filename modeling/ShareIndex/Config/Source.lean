import ShareIndex.Config.Enclosure
import ShareIndex.Config.Settings
import ShareIndex.Config.Variable
import ShareIndex.FileTree
import ShareIndex.Json.Reader
import ShareIndex.Toml.Reader
import ShareIndex.Yaml.Datum

/-!
# ShareIndex.Config.Source

Where settings come from: files in three formats, and variables of the environment.

* `Format`       — the format of a file, which its extension tells.
* `Format.read?` — the table in a text.
* `fileLayers?`  — the layers of the files: the one that is named, or those in the folder of the user.
* `load`         — the settings of all sources; variables are the highest.
-/

namespace ShareIndex
namespace Config

inductive Format where
  | toml
  | yaml
  | json
  deriving DecidableEq, Repr

namespace Format

def ofExtension? (extension : String) : Option Format :=
  if extension = "toml" then some toml
  else if extension = "yaml" ∨ extension = "yml" then some yaml
  else if extension = "json" then some json
  else none

def ofPath? (path : FilePath) : Option Format := path.extension?.bind ofExtension?

/-- The integers of one format have a sign always. -/
def hasNaturals (format : Format) : Bool := format != toml

def read? (format : Format) (text : String) : Option Datum :=
  let datum := match format with
    | toml => Toml.read? text.toList
    | yaml => (Yaml.Document.ofText? text).bind Yaml.table?
    | json => Json.read? text.toList
  datum.bind (Enclosure.settings? format.hasNaturals)

end Format

/-- The table in a file. -/
def fileTable? (files : FileTree) (path : FilePath) (format : Format) : Option Datum :=
  match files.readText path with
  | .error _ => none
  | .ok text => format.read? text

/-- The files in the folder of the user, from the lowest to the highest. -/
def userFiles : List (String × Format) :=
  [("fetchtrack.toml", .toml), ("fetchtrack.yaml", .yaml), ("fetchtrack.json", .json)]

/-- Whether a path leads to a file, of whatever content. -/
def isFile (files : FileTree) (path : FilePath) : Bool :=
  match files.stat path with
  | .ok (.file _) | .ok (.database _ _) => true
  | _ => false

/-- A place and those above it, upwards. -/
def upwards (place : Place) : List Place := (List.range (place.length + 1)).reverse.map place.take

/-- Where a file is looked for: a relative path is tried from the folder in which the process runs, and from all
above. -/
def spots (here : Place) (path : FilePath) : List FilePath :=
  if path.isAbsolute then [path] else (upwards here).map fun place => (FilePath.ofPlace place).entry path.text

/-- The files of the user that are there, with their paths. Each may be missing, and so may the folder. -/
def foundFiles (files : FileTree) : Option FilePath → List (FilePath × Format)
  | none => []
  | some folder => userFiles.filterMap fun file =>
    ((spots files.here (folder.entry file.1)).find? (isFile files)).map (·, file.2)

def userLayers? (files : FileTree) (folder : Option FilePath) : Option Layers :=
  (foundFiles files folder).mapM fun file => fileTable? files file.1 file.2

/-- A file that is named replaces those of the user, and must be there. -/
def fileLayers? (files : FileTree) (folder : Option FilePath) : Option FilePath → Except Error Layers
  | none =>
    match userLayers? files folder with
    | none => .error .load
    | some layers => .ok layers
  | some path =>
    match Format.ofPath? path with
    | none => .error (.invalid .fileExtension)
    | some format =>
      match fileTable? files path format with
      | none => .error .load
      | some d => .ok [d]

/-- The settings of all sources, before they are validated. -/
def ofLayers (layers : Layers) : Except Error Settings :=
  match Settings.ofLayers? layers with
  | none => .error .load
  | some s => .ok s

def load (files : FileTree) (folder : Option FilePath) (named : Option FilePath) (values : List (String × String)) :
    Except Error Settings := do
  let layers ← fileLayers? files folder named
  (← ofLayers (layers ++ [Variable.table values])).validate

end Config
end ShareIndex
