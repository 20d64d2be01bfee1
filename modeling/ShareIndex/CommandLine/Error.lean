import ShareIndex.Config.Settings
import ShareIndex.Folder.Error
import ShareIndex.Index.Error

/-!
# ShareIndex.CommandLine.Error

Why the program fails, with what is behind it.
-/

namespace ShareIndex
namespace CommandLine

inductive Error where
  | configuration (cause : Config.Error)
  /-- There is no cause when the folder of the store could not be made. -/
  | store (cause? : Option Store.Error)
  | conversion (cause : Folder.Error)
  | generation (cause : Repository.Error)
  | index (cause : Index.Error)
  | dump (cause : Index.Error)
  | lookup (cause : Repository.Error)
  deriving DecidableEq, Repr

def Error.message : Error → String
  | configuration _ => "could not load configuration"
  | store _ => "could not open store"
  | conversion _ => "could not set up folder conversion"
  | generation _ => "could not read the active generation"
  | index _ => "index failed"
  | dump _ => "dump failed"
  | lookup _ => "lookup failed"

end CommandLine
end ShareIndex
