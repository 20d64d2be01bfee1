import ShareIndex.Datum

/-!
# ShareIndex.Toml.Table

Tables while a document is read. A table may be defined once only, and how it has come to be decides what may
still be added to it.

* `Origin`           — how a table has come to be.
* `Item`             — a value, a table, or a list of tables of which the last one is open.
* `update?`          — changes the table at the end of a path; missing tables are made on the way.
* `assign?`          — gives a key its value.
* `openTable?`, `openElement?` — what the header of a table, or of one more table of a list, does.
-/

namespace ShareIndex
namespace Toml

inductive Origin where
  /-- By a header of its own. -/
  | header
  /-- On the way to another table, by a header. -/
  | path
  /-- On the way to a value, by a key with dots. -/
  | dotted
  deriving DecidableEq, Repr

inductive Item where
  | value (datum : Datum)
  | table (origin : Origin) (entries : List (String × Item))
  | tables (closed : List Datum) (entries : List (String × Item))

abbrev Entries := List (String × Item)

def putItem (key : String) (item : Item) : Entries → Entries
  | [] => [(key, item)]
  | e :: rest => if e.1 = key then (key, item) :: rest else e :: putItem key item rest

mutual

def Item.datum : Item → Datum
  | .value d => d
  | .table _ entries => .table (entriesDatum entries)
  | .tables closed entries => .list (closed ++ [.table (entriesDatum entries)])

def entriesDatum : List (String × Item) → List (String × Datum)
  | [] => []
  | (key, item) :: rest => (key, item.datum) :: entriesDatum rest

end

/-- Values hold no further tables. A key with dots adds nothing to a table that has a header. -/
def update? (dotted : Bool) (change : Origin → Entries → Option Entries) :
    List String → Origin → Entries → Option Entries
  | [], origin, entries => change origin entries
  | key :: path, _, entries =>
    match entries.lookup key with
    | none =>
      let origin := if dotted then .dotted else .path
      (update? dotted change path origin []).map fun inner => putItem key (.table origin inner) entries
    | some (.value _) => none
    | some (.tables closed inner) =>
      (update? dotted change path .header inner).map fun inner => putItem key (.tables closed inner) entries
    | some (.table origin inner) =>
      if dotted && origin == .header then none
      else (update? dotted change path origin inner).map fun inner => putItem key (.table origin inner) entries

/-- The parts of a key before the last one, and the last one. -/
def splitLast? (key : List String) : Option (List String × String) :=
  key.getLast?.map fun last => (key.dropLast, last)

/-- Gives a key its value, which it must not have yet. -/
def assign? (key : List String) (value : Datum) (origin : Origin) (entries : Entries) : Option Entries := do
  let (path, name) ← splitLast? key
  update? true (fun origin inner =>
    if !path.isEmpty && origin != .dotted then none
    else if (inner.lookup name).isSome then none
    else some (putItem name (.value value) inner)) path origin entries

/-- A table that has come to be by a path may get its header later. -/
def openTable? (key : List String) (root : Entries) : Option Entries := do
  let (path, name) ← splitLast? key
  update? false (fun _ inner =>
    match inner.lookup name with
    | none => some (putItem name (.table .header []) inner)
    | some (.table .path entries) => some (putItem name (.table .header entries) inner)
    | some _ => none) path .header root

def openElement? (key : List String) (root : Entries) : Option Entries := do
  let (path, name) ← splitLast? key
  update? false (fun _ inner =>
    match inner.lookup name with
    | none => some (putItem name (.tables [] []) inner)
    | some (.tables closed entries) => some (putItem name (.tables (closed ++ [.table (entriesDatum entries)]) []) inner)
    | some _ => none) path .header root

end Toml
end ShareIndex
