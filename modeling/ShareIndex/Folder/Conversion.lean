import ShareIndex.FileTree
import ShareIndex.Folder.Description
import ShareIndex.Folder.Error
import ShareIndex.Folder.MediaType
import ShareIndex.Folder.Page

/-!
# ShareIndex.Folder.Conversion

Folders become downloads.

* `Converter`         — the work folder, the public address, and the names that are never offered.
* `Converter.make`    — a converter; the path of the work folder must end in a name.
* `Converter.below`   — the path check: what remains of a folder's path below the work folder.
* `Converter.files`   — the files of a folder, by name; links to files count as files.
* `Converter.convert` — the download of a folder.
-/

namespace ShareIndex
namespace Folder

open Share (SharedFile Download)

def descriptionName : String := "description.md"

def templateName : String := "template.html"

/-- Files that say something about their folder are not offered. -/
def ownNames : List String := ["index.html", descriptionName, templateName]

/-- No download has more files; those that follow by name are ignored. -/
def maxFiles : Nat := 100

structure Converter where
  workFolder : FilePath
  /-- The name of the work folder, with which all urls start. -/
  share : String
  skipped : List String
  baseUrl : String
  deriving DecidableEq, Repr

namespace Converter

def trimUrl (url : String) : String := String.ofList (Text.dropEndWhile (· == '/') url.toList)

def make (workFolder : FilePath) (url : String) : Except Error Converter :=
  match workFolder.name? with
  | none => .error (.invalidPath workFolder)
  | some share => .ok ⟨workFolder, share, ownNames, trimUrl url⟩

def skip (c : Converter) (names : List String) : Converter := { c with skipped := c.skipped ++ names }

/-- A path with `..` in it is refused, wherever it leads. -/
def below (c : Converter) (folder : FilePath) : Except Error (List Component) :=
  if folder.components.contains .parent then .error (.invalidPath folder)
  else
    match folder.relativeTo? c.workFolder with
    | none => .error (.invalidPath folder)
    | some relative => .ok relative

/-- The names in a url, from the share down to the file. -/
def urlNames (c : Converter) (relative : List Component) (name : String) : List String :=
  c.share :: relative.filterMap Component.name? ++ [name]

def url (c : Converter) (relative : List Component) (name : String) : String :=
  String.join ((c.urlNames relative name).map ("/" ++ ·))

/-- The size of a file, or of the file that a link leads to. -/
def size? (tree : FileTree) (path : FilePath) : Option Nat :=
  match tree.stat path with
  | .ok (.file content) => some content.length
  | .ok (.database _ size) => some size
  | _ => none

def file? (c : Converter) (tree : FileTree) (folder : FilePath) (relative : List Component) (name : String) :
    Option SharedFile :=
  if c.skipped.contains name then none
  else
    let path := folder.entry name
    (size? tree path).map fun size => .ofPath path (c.url relative name) size (MediaType.ofPath path)

def sortNames (names : List String) : List String := names.mergeSort fun a b => decide (¬ b < a)

def files (c : Converter) (tree : FileTree) (folder : FilePath) (relative : List Component) :
    Except Error (List SharedFile) :=
  match tree.list folder with
  | .error _ => .error .unreadable
  | .ok entries => .ok (((sortNames (entries.map (·.1))).filterMap (c.file? tree folder relative)).take maxFiles)

/-- A text that a folder may have. -/
def ownText (tree : FileTree) (folder : FilePath) (name : String) : Except Error (Option String) :=
  match tree.readText (folder.entry name) with
  | .ok text => .ok (some text)
  | .error .notFound => .ok none
  | .error _ => .error .unreadable

def description (tree : FileTree) (folder : FilePath) : Except Error Description := do
  match ← ownText tree folder descriptionName with
  | none => return .empty
  | some text =>
    match Description.parse? text with
    | none => throw .description
    | some d => return d

/-- The title of the settings, or else the name of the folder. -/
def titleOf (d : Description) (folder : FilePath) : String :=
  match d.front.title with
  | none => folder.nameOrEmpty
  | some title => if Text.isBlankText title.toList then folder.nameOrEmpty else title

def describe (d : Description) (f : SharedFile) : SharedFile := { f with description := d.front.files.get? f.name }

def convert (c : Converter) (tree : FileTree) (folder : FilePath) : Except Error Download := do
  let relative ← c.below folder
  let files ← c.files tree folder relative
  if files.isEmpty then throw .noFiles
  let d ← description tree folder
  let files := files.map (describe d)
  let title := titleOf d folder
  let template ← ownText tree folder templateName
  match renderPage template c.baseUrl ⟨Share.stableId folder, title, d.body, files⟩ with
  | none => throw .template
  | some page =>
    return { Download.ofPath folder title page files with enabled := d.front.enabled, description := d.body }

end Converter
end Folder
end ShareIndex
