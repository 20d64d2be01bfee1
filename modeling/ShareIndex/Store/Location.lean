import ShareIndex.FilePath
import ShareIndex.Text.Blank

/-!
# ShareIndex.Store.Location

Where a store is kept: in memory, or in the file of a database.

* `Location`        — the two places, with their written form.
* `Location.parse?` — reads the written form; blanks around it do not count.
-/

namespace ShareIndex
namespace Store

inductive Location where
  | memory
  | database (path : FilePath)
  deriving DecidableEq, Repr

namespace Location

def memoryName : String := "memory"

def databaseScheme : String := "sqlite:"

def render : Location → String
  | memory => memoryName
  | database path => databaseScheme ++ path.text

/-- What follows the scheme of a database. -/
def pathOf? (text : List Char) : Option (List Char) := FilePath.afterStart? databaseScheme.toList text

/-- Nothing else than these two forms is a location; the path of a database is not empty. -/
def parse? (text : String) : Option Location :=
  let trimmed := Text.trim text.toList
  if trimmed = memoryName.toList then some memory
  else
    match pathOf? trimmed with
    | some (c :: rest) => some (database ⟨String.ofList (c :: rest)⟩)
    | _ => none

end Location

end Store
end ShareIndex
