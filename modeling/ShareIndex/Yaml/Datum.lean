import ShareIndex.Datum
import ShareIndex.Text.Segment
import ShareIndex.Yaml.Schema

/-!
# ShareIndex.Yaml.Datum

The datum of a document.

* `ofPlain`     — what a plain scalar stands for.
* `ofScalar?`   — what a scalar stands for; its tag may forbid some texts.
* `tagged`      — what a local tag makes of a datum.
* `ofNode?`     — the datum of a node. How often references may be followed is limited.
* `table?`      — the datum of a document whose root is a mapping, or which is empty.
-/

namespace ShareIndex
namespace Yaml

def ofInteger (n : Int) (text : String) : Datum :=
  if Decimal.minimum ≤ n ∧ n < Decimal.wordLimit then .integer n else .number text

/-- The integers of 128 bits, with a sign or without. -/
def isWide (n : Int) : Bool :=
  -170141183460469231731687303715884105728 ≤ n && n < 340282366920938463463374607431768211456

/-- A number beyond 128 bits is no integer. -/
def ofPlain (text : String) : Datum :=
  if text = "" ∨ isNull text then .absent
  else
    match truth? text, (integer? text.toList).filter isWide with
    | some b, _ => .truth b
    | none, some n => ofInteger n text
    | none, none => if !isPaddedNumeral text.toList && isNumber text.toList then .number text else .text text

/-- What a scalar stands for by itself or by one of the tags for that; such a tag may forbid some texts. -/
def ofScalar? (tag : Option Tag) (text : String) (style : Style) : Option Datum :=
  if tag = some boolTag then (truth? text).map .truth
  else if tag = some intTag then
    match integer? text.toList with
    | some n => if isWide n then some (ofInteger n text) else none
    | none => none
  else if tag = some floatTag then (if isNumber text.toList then some (.number text) else none)
  else if tag = some nullTag then (if isNull text then some .absent else none)
  else if tag.all Tag.isLocal && style == .plain then some (ofPlain text)
  else some (.text text)

/-- A local tag puts a datum into tables, by the parts of its name between the points. -/
def tagged (tag : Option Tag) (value : Datum) : Datum :=
  match tag.bind Tag.localName? with
  | some name => value.within ((Text.segments '.' name.toList).map String.ofList)
  | none => value

/-- How deep collections may be nested. -/
def maxDepth : Nat := 128

/-- How many references may be followed for each event of the document. -/
def maxReferences : Nat := 100

/-- The node itself or the one it refers to, and how many references may still be followed. -/
def follow? (d : Document) (n : Node) (references : Nat) : Option (Node × Nat) :=
  match n, references with
  | .reference _, 0 => none
  | .reference number, references + 1 => (d.target? number).map (·, references)
  | n, references => some (n, references)

/-- Reads one node after the other. -/
def readAll? {α β : Type} (read : α → Nat → Option (β × Nat)) : List α → Nat → Option (List β × Nat)
  | [], references => some ([], references)
  | a :: rest, references => do
    let (b, references) ← read a references
    let (bs, references) ← readAll? read rest references
    return (b :: bs, references)

def keyOf? (d : Document) (n : Node) (references : Nat) : Option (String × Nat) := do
  match ← follow? d n references with
  | (.scalar _ text _, references) => some (text, references)
  | _ => none

def entryOf? (d : Document) (read : Node → Nat → Option (Datum × Nat)) (pair : Node × Node) (references : Nat) :
    Option ((String × Datum) × Nat) := do
  let (key, references) ← keyOf? d pair.1 references
  let (value, references) ← read pair.2 references
  return ((key, value), references)

/-- Of two entries with one key the later one counts. -/
def tableOf (entries : List (String × Datum)) : Datum :=
  .table (entries.foldl (fun table (key, value) => Datum.put key value table) [])

/-- The datum of a node with collections that are nested at most `depth` deep. -/
def ofNode? (d : Document) : (depth : Nat) → Node → Nat → Option (Datum × Nat)
  | depth, n, references =>
    match follow? d n references with
    | none => none
    | some (.scalar tag text style, references) => (ofScalar? tag text style).map fun v => (tagged tag v, references)
    | some (.reference _, _) => none
    | some (.sequence tag items, references) =>
      match depth with
      | 0 => none
      | depth + 1 =>
        (readAll? (ofNode? d depth) items references).map fun (items, references) =>
          (tagged tag (.list items), references)
    | some (.mapping tag pairs, references) =>
      match depth with
      | 0 => none
      | depth + 1 =>
        (readAll? (entryOf? d (ofNode? d depth)) pairs references).map fun (entries, references) =>
          (tagged tag (tableOf entries), references)

/-- The entries of the root, whatever its tag; an empty plain scalar is an empty mapping. -/
def table? (d : Document) : Option Datum :=
  match d.root? with
  | none => if d.events.isEmpty then some (.table []) else none
  | some root =>
    match follow? d root (maxReferences * d.events.length) with
    | some (.scalar _ "" .plain, _) => some (.table [])
    | some (.mapping _ pairs, references) =>
      (readAll? (entryOf? d (ofNode? d (maxDepth - 1))) pairs references).map fun (entries, _) => tableOf entries
    | _ => none

end Yaml
end ShareIndex
