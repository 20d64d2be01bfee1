import ShareIndex.Repository.Generation
import ShareIndex.Store.Request

/-!
# ShareIndex.Repository.Error

Why a call on the repository fails, and the failure of the store behind it, if there is one.
-/

namespace ShareIndex
namespace Repository

inductive Error where
  | store (cause : Store.Error)
  | clear (g : Generation) (cause : Store.Error)
  | write (g : Generation) (cause : Store.Error)
  | swap (g : Generation) (cause : Store.Error)
  | invalidGeneration (text : String)
  | pageNotFound (id : String)
  | fileNotFound (id : String)
  | noDownloads
  deriving DecidableEq, Repr

namespace Error

def message : Error → String
  | store _ => "store operation failed"
  | clear g _ => "could not clear generation " ++ g.text
  | write g _ => "could not write generation " ++ g.text
  | swap g _ => "could not activate generation " ++ g.text
  | invalidGeneration text => "invalid generation: " ++ text
  | pageNotFound id => "page not found: " ++ id
  | fileNotFound id => "file not found: " ++ id
  | noDownloads => "no downloads found"

def cause? : Error → Option Store.Error
  | store cause | clear _ cause | write _ cause | swap _ cause => some cause
  | invalidGeneration _ | pageNotFound _ | fileNotFound _ | noDownloads => none

end Error

/-- Reads the name of a generation. -/
def Generation.parse (text : String) : Except Error Generation :=
  match ofText? text with
  | some g => .ok g
  | none => .error (.invalidGeneration text)

end Repository
end ShareIndex
