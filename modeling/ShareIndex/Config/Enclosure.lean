import ShareIndex.Datum

/-!
# ShareIndex.Config.Enclosure

Values in files may be enclosed: a table with a certain key stands for the value under that key, whatever else it
holds. Next to it may stand a mark, which has no effect but must be a natural number.

* `Enclosure.disclosed?` — a datum with all enclosed values in the place of their tables.
-/

namespace ShareIndex
namespace Config
namespace Enclosure

def valueKey : String := "___figment_value_value"

def markKey : String := "___figment_value_id"

/-- `marks` says whether there are natural numbers, and not integers only. -/
def isMark (marks : Bool) : Datum → Bool
  | .integer n => marks && 0 ≤ n
  | _ => false

/-- What a table stands for, by its entries without enclosures. -/
def ofEntries (entries : List (String × Datum)) : Datum :=
  match entries.lookup valueKey with
  | some value => value
  | none => .table entries

mutual

/-- A datum without enclosures, if all marks are well-formed. -/
def disclosed? (marks : Bool) : Datum → Option Datum
  | .list items => (disclosedAll? marks items).map .list
  | .table entries => (disclosedEntries? marks entries).map ofEntries
  | d => some d

def disclosedAll? (marks : Bool) : List Datum → Option (List Datum)
  | [] => some []
  | d :: rest => do
    let d ← disclosed? marks d
    return d :: (← disclosedAll? marks rest)

/-- The entries that are no marks. -/
def disclosedEntries? (marks : Bool) : List (String × Datum) → Option (List (String × Datum))
  | [] => some []
  | (key, d) :: rest =>
    if key = markKey then (if isMark marks d then disclosedEntries? marks rest else none)
    else do
      let d ← disclosed? marks d
      return (key, d) :: (← disclosedEntries? marks rest)

end

/-- The settings of a file, which are not enclosed as a whole. -/
def settings? (marks : Bool) : Datum → Option Datum
  | .table entries => do
    return .table (← entries.mapM fun (key, d) => return (key, ← disclosed? marks d))
  | _ => none

end Enclosure
end Config
end ShareIndex
