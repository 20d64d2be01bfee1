import ShareIndex.FilePath
import ShareIndex.Folder.MediaTable
import ShareIndex.Text.CaseFold

/-!
# ShareIndex.Folder.MediaType

The media types of files, by the extensions of their names. Case does not count.

* `ofExtension` — the type in the table.
* `ofPath`      — the type of the file at a path.
-/

namespace ShareIndex
namespace Folder
namespace MediaType

/-- What is said of a file of which nothing is known. -/
def unknown : String := "application/octet-stream"

def ofExtension (extension : String) : String :=
  let folded := Text.foldText extension
  match table.find? fun row => row.2.contains folded with
  | some row => row.1
  | none => unknown

def ofPath (path : FilePath) : String :=
  match path.extension? with
  | some extension => ofExtension extension
  | none => unknown

end MediaType
end Folder
end ShareIndex
