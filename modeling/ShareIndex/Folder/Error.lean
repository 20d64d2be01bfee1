import ShareIndex.FilePath

/-!
# ShareIndex.Folder.Error

Why a folder is no download.
-/

namespace ShareIndex
namespace Folder

inductive Error where
  /-- The path does not lead into the work folder. -/
  | invalidPath (path : FilePath)
  | noFiles
  | unreadable
  | template
  | description
  deriving DecidableEq, Repr

def Error.message : Error → String
  | invalidPath path => "invalid folder path: " ++ path.text
  | noFiles => "folder has no files"
  | unreadable => "could not read folder"
  | template => "issue with page template"
  | description => "invalid folder description"

end Folder
end ShareIndex
