import ShareIndex.Store.Keyspace
import ShareIndex.Store.Database

/-!
# ShareIndex.Store.Backend

The two backends as one type of stores.
-/

namespace ShareIndex
namespace Store

inductive Backend where
  | memory (keyspace : Keyspace)
  | database (database : Database)

namespace Backend

def name : Backend → String
  | memory _ => "memory"
  | database _ => "sqlite"

def perform : Backend → (r : Request) → Outcome Backend r.Answer
  | memory s, r =>
    let (answer, s') := s.perform r
    (answer, memory s')
  | database d, r =>
    let (answer, d') := d.perform r
    (answer, database d')

def extent : Backend → Nat
  | memory s => s.extent
  | database d => d.extent

instance : KeyValueStore Backend := ⟨perform, extent⟩

/-- Closes the connection to a database; memory has none. -/
def close : Backend → Backend
  | memory s => memory s
  | database d => database d.close

end Backend
end Store
end ShareIndex
