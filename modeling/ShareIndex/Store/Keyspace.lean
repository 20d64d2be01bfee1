import ShareIndex.Store.Request

/-!
# ShareIndex.Store.Keyspace

The store that lives in memory: a map from keys to values.

* `Value`    — a text or a hash.
* `Keyspace` — the map; a batch stops at the first command that fails and keeps what came before it.
-/

namespace ShareIndex
namespace Store

inductive Value where
  | text (value : String)
  | hash (fields : Hash)
  deriving DecidableEq

structure Keyspace where
  values : OrderedMap String Value
  deriving DecidableEq

namespace Keyspace

def empty : Keyspace := ⟨∅⟩

instance : Inhabited Keyspace := ⟨empty⟩

def get? (s : Keyspace) (key : String) : Option Value := s.values.get? key

def put (s : Keyspace) (key : String) (value : Value) : Keyspace := ⟨s.values.insert key value⟩

def remove (s : Keyspace) (key : String) : Keyspace := ⟨s.values.erase key⟩

/-- The hash at a key, empty when there is nothing. -/
def hashAt (s : Keyspace) (key : String) : Except Error Hash :=
  match s.get? key with
  | none => .ok ∅
  | some (.hash fields) => .ok fields
  | some (.text _) => .error (.wrongType key)

/-- The hash at a key, for a request that writes to it: where there is nothing, an empty hash is put first, and stays
there if the request fails later. -/
def openHash (s : Keyspace) (key : String) : Outcome Keyspace Hash :=
  match s.get? key with
  | none => (.ok ∅, s.put key (.hash ∅))
  | some (.hash fields) => (.ok fields, s)
  | some (.text _) => (.error (.wrongType key), s)

/-- Hashes that have become empty are not kept. -/
def putHash (s : Keyspace) (key : String) (fields : Hash) : Keyspace :=
  if fields.isEmpty then s.remove key else s.put key (.hash fields)

def getText (s : Keyspace) (key : String) : Except Error (Option String) :=
  match s.get? key with
  | none => .ok none
  | some (.text value) => .ok (some value)
  | some (.hash _) => .error (.wrongType key)

/-- Removes the keys one after the other; counts those that were there. -/
def deleteKeys (s : Keyspace) : List String → Nat × Keyspace
  | [] => (0, s)
  | key :: rest =>
    let (count, s') := (s.remove key).deleteKeys rest
    ((if s.values.contains key then 1 else 0) + count, s')

/-- Removes the fields one after the other; counts those that were there. -/
def eraseFields (fields : Hash) : List String → Nat × Hash
  | [] => (0, fields)
  | field :: rest =>
    let (count, fields') := eraseFields (fields.erase field) rest
    ((if fields.contains field then 1 else 0) + count, fields')

def deleteFields (s : Keyspace) (key : String) (fields : List String) : Outcome Keyspace Nat :=
  match s.hashAt key with
  | .error e => (.error e, s)
  | .ok hash =>
    let (count, hash') := eraseFields hash fields
    (.ok count, s.putHash key hash')

def setField (s : Keyspace) (key field value : String) : Outcome Keyspace Unit :=
  match s.openHash key with
  | (.error e, s) => (.error e, s)
  | (.ok hash, s) => (.ok (), s.put key (.hash (hash.insert field value)))

def runCommand (s : Keyspace) : Command → Outcome Keyspace Unit
  | .set key value => (.ok (), s.put key (.text value))
  | .setField key field value => s.setField key field value
  | .delete key => (.ok (), s.remove key)
  | .deleteField key field =>
    match s.deleteFields key [field] with
    | (.ok _, s') => (.ok (), s')
    | (.error e, s') => (.error e, s')

/-- Runs commands up to the first one that fails. -/
def apply (s : Keyspace) : List Command → Outcome Keyspace Unit
  | [] => (.ok (), s)
  | command :: rest =>
    match s.runCommand command with
    | (.ok (), s') => s'.apply rest
    | (.error e, s') => (.error e, s')

def scan (s : Keyspace) (cursor : Option String) (pattern : Pattern) (count : Nat) : Page String :=
  .ofItems ((((s.values.after cursor).map (·.1)).filter pattern.matches).take count) count id

def scanFields (s : Keyspace) (key : String) (cursor : Option String) (count : Nat) :
    Except Error (Page (String × String)) :=
  match s.hashAt key with
  | .error e => .error e
  | .ok hash => .ok (.ofItems ((hash.after cursor).take count) count (·.1))

def increment (s : Keyspace) (key field : String) (delta : Int64) : Outcome Keyspace Int :=
  match s.openHash key with
  | (.error e, s) => (.error e, s)
  | (.ok hash, s) =>
    match currentValue (hash.get? field) with
    | .error e => (.error e, s)
    | .ok current =>
      match addWithin current delta with
      | .error e => (.error e, s)
      | .ok sum => (.ok sum, s.put key (.hash (hash.insert field (Decimal.renderWord sum))))

def perform (s : Keyspace) : (r : Request) → Outcome Keyspace r.Answer
  | .get key => (s.getText key, s)
  | .set key value => (.ok (), s.put key (.text value))
  | .delete keys =>
    let (count, s') := s.deleteKeys keys
    (.ok count, s')
  | .scan cursor pattern count => (.ok (s.scan cursor pattern count), s)
  | .getField key field => ((s.hashAt key).map (·.get? field), s)
  | .getFields key fields => ((s.hashAt key).map fun hash => fields.map hash.get?, s)
  | .getAll key => (s.hashAt key, s)
  | .scanFields key cursor count => (s.scanFields key cursor count, s)
  | .deleteFields key fields => s.deleteFields key fields
  | .increment key field delta => s.increment key field delta
  | .apply commands => s.apply commands

def valueExtent : Value → Nat
  | .text _ => 1
  | .hash fields => 1 + fields.size

def extent (s : Keyspace) : Nat := (s.values.entries.map fun e => valueExtent e.2).foldr (· + ·) 0

instance : KeyValueStore Keyspace := ⟨perform, extent⟩

end Keyspace
end Store
end ShareIndex
