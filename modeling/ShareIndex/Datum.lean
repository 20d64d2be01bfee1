/-!
# ShareIndex.Datum

Data that are made of texts, numbers, lists and tables, whatever they are written in.

* `Datum`        — one piece of data.
* `Datum.put`    — a table with one entry more; an entry of the same key is replaced.
* `Datum.within` — tables of one entry, each in the other, around a datum.
* `Datum.entry?` — the entry of a key, if the datum is a table that has it.
-/

namespace ShareIndex

inductive Datum where
  | absent
  | truth (value : Bool)
  | integer (value : Int)
  /-- A number that is no integer of 64 bits, as it is written. -/
  | number (numeral : String)
  | text (value : String)
  | list (items : List Datum)
  | table (entries : List (String × Datum))

namespace Datum

/-- The entries of a table with one more at the end. -/
def put (key : String) (value : Datum) (entries : List (String × Datum)) : List (String × Datum) :=
  (entries.filter fun e => e.1 != key) ++ [(key, value)]

/-- The datum in a table, in a table and so on, by the keys from the outermost inwards. An empty key ends them. -/
def within (value : Datum) : List String → Datum
  | [] => value
  | key :: rest => if key = "" then value else table [(key, within value rest)]

def entry? (key : String) : Datum → Option Datum
  | table entries => entries.lookup key
  | _ => none

end Datum
end ShareIndex
