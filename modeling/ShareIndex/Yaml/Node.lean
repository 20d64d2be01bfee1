import ShareIndex.Yaml.Event

/-!
# ShareIndex.Yaml.Node

The nodes of a document that is the only one of its text.

* `Node`           — scalars, sequences and mappings; a reference stays a reference.
* `Document`       — the events of a document, and where its anchors are.
* `Document.root`  — the node of the whole document, if it has one.
* `Document.target?` — the node that a reference leads to.

A reference has the number of its anchor. An anchor gets as its number how many names have been used before;
a name that is used again does not make that larger, so that two anchors may have one number. The later of
them is then the target.
-/

namespace ShareIndex
namespace Yaml

inductive Node where
  | scalar (tag : Option Tag) (text : String) (style : Style)
  | sequence (tag : Option Tag) (items : List Node)
  | mapping (tag : Option Tag) (pairs : List (Node × Node))
  | reference (target : Nat)

structure Document where
  events : List (Event Nat)
  /-- Numbers of anchors and the positions of their events, the latest first. -/
  anchors : List (Nat × Nat)

mutual

/-- The node that starts with the first event; `fuel` bounds the number of events. -/
def Node.read : Nat → List (Event Nat) → Option (Node × List (Event Nat))
  | 0, _ => none
  | _, [] => none
  | fuel + 1, event :: rest =>
    match event with
    | .scalar p text style => some (.scalar p.tag text style, rest)
    | .reference target => some (.reference target, rest)
    | .sequenceStart p => do
      let (items, rest) ← Node.readItems fuel rest
      return (.sequence p.tag items, rest)
    | .mappingStart p => do
      let (pairs, rest) ← Node.readPairs fuel rest
      return (.mapping p.tag pairs, rest)
    | .sequenceEnd | .mappingEnd => none

def Node.readItems : Nat → List (Event Nat) → Option (List Node × List (Event Nat))
  | 0, _ => none
  | _, .sequenceEnd :: rest => some ([], rest)
  | fuel + 1, events => do
    let (item, rest) ← Node.read fuel events
    let (items, rest) ← Node.readItems fuel rest
    return (item :: items, rest)

def Node.readPairs : Nat → List (Event Nat) → Option (List (Node × Node) × List (Event Nat))
  | 0, _ => none
  | _, .mappingEnd :: rest => some ([], rest)
  | fuel + 1, events => do
    let (key, rest) ← Node.read fuel events
    let (value, rest) ← Node.read fuel rest
    let (pairs, rest) ← Node.readPairs fuel rest
    return ((key, value) :: pairs, rest)

end

namespace Document

def nodeAt? (d : Document) (position : Nat) : Option Node :=
  (Node.read (2 * d.events.length + 2) (d.events.drop position)).map (·.1)

def root? (d : Document) : Option Node := d.nodeAt? 0

def target? (d : Document) (number : Nat) : Option Node := (d.anchors.lookup number).bind d.nodeAt?

/-- The node itself, or the one that it refers to. -/
def follow? (d : Document) : Node → Option Node
  | .reference number => d.target? number
  | n => some n

/-- Names of anchors with their numbers, and numbers with their positions. -/
structure Anchors where
  names : List (String × Nat)
  positions : List (Nat × Nat)

def Anchors.declare (a : Anchors) (name : String) (position : Nat) : Anchors :=
  let number := a.names.length
  ⟨(name, number) :: a.names.filter (·.1 ≠ name), (number, position) :: a.positions⟩

/-- Replaces the names in references by numbers; a name must have been declared before. -/
def number (a : Anchors) (position : Nat) : List (Event String) → Option Document
  | [] => some ⟨[], a.positions⟩
  | event :: rest => do
    let a := match event.anchor? with
      | some name => a.declare name position
      | none => a
    let numbered : Event Nat ← match event with
      | .scalar p text style => some (.scalar p text style)
      | .sequenceStart p => some (.sequenceStart p)
      | .sequenceEnd => some .sequenceEnd
      | .mappingStart p => some (.mappingStart p)
      | .mappingEnd => some .mappingEnd
      | .reference name => (a.names.lookup name).map .reference
    let d ← number a (position + 1) rest
    return { d with events := numbered :: d.events }

/-- The document of a text; a text with several documents has none, and one without any has an empty one. -/
def ofText? (text : String) : Option Document := do
  match ← documents? text.toList with
  | [] => some ⟨[], []⟩
  | [events] => number ⟨[], []⟩ 0 events
  | _ => none

end Document
end Yaml
end ShareIndex
