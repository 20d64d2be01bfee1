import ShareIndex.OrderedMap
import ShareIndex.Template.Node

/-!
# ShareIndex.Template.Render

The text of a template for given values.

* `Scope`       — the variables of a round of a loop, or of a binding.
* `Environment` — the scopes, inner ones before outer ones, and the variables of the whole template.
* `evaluate`    — the value of an expression. There are no functions, so that a call has none.
* `render`      — the text; it is missing when a value that is needed has no text, or is missing itself.
-/

namespace ShareIndex
namespace Template

inductive Scope where
  | round (names : List (String × Value))
  | binding (name : String) (value : Value)

structure Environment where
  scopes : List Scope
  globals : List (String × Value)

namespace Environment

def ofGlobals (globals : List (String × Value)) : Environment := ⟨[], globals⟩

def push (scope : Scope) (env : Environment) : Environment := { env with scopes := scope :: env.scopes }

end Environment

/-- What a look-up leads to. -/
inductive Finding where
  | value (found : Value)
  /-- There is no entry, and the look-up is optional. -/
  | absent
  | failure

/-- An entry, or what its lack means. -/
def Finding.ofEntry (optional : Bool) : Option Value → Finding
  | some v => value v
  | none => if optional then absent else failure

/-- Looks up a key. Only maps have names, and only lists have indices. -/
def lookUp (v : Value) (step : Step) : Finding :=
  match v, step.key with
  | .map entries, .name key => .ofEntry step.optional (entries.lookup key)
  | .list items, .index i => .ofEntry step.optional items[i]?
  | _, _ => .failure

/-- Follows look-ups up to the first one that does not find a value. -/
def follow (v : Value) : List Step → Finding
  | [] => .value v
  | step :: rest =>
    match lookUp v step with
    | .value v => follow v rest
    | .absent => .absent
    | .failure => .failure

/-- The value that was found, or `other` in place of what is absent. -/
def Finding.valueOr (other : Option Value) : Finding → Option Value
  | value v => some v
  | absent => other
  | failure => none

/-- The value of a variable. What is absent in a binding or in the globals is nothing; what is absent in a round of
a loop is looked for in the scopes around the loop. -/
def variableValue? (globals : List (String × Value)) (optional : Bool) (name : String) (steps : List Step) :
    List Scope → Option Value
  | [] =>
    match Finding.ofEntry optional (globals.lookup name) with
    | .value v => (follow v steps).valueOr (some .nothing)
    | finding => finding.valueOr (some .nothing)
  | .binding n v :: rest =>
    if n = name then (follow v steps).valueOr (some .nothing)
    else variableValue? globals optional name steps rest
  | .round entries :: rest =>
    match entries.lookup name with
    | none => variableValue? globals optional name steps rest
    | some v => (follow v steps).valueOr (variableValue? globals optional name steps rest)

/-- A map value; of two entries with one key the later one counts. -/
def mapOf (entries : List (String × Value)) : Value := .map (OrderedMap.ofList entries).entries

mutual

def evaluate (env : Environment) : Expression → Option Value
  | .constant v => some v
  | .variable optional name steps => variableValue? env.globals optional name steps env.scopes
  | .list items => (evaluateAll env items).map .list
  | .map entries => (evaluateEntries env entries).map mapOf
  | .call _ _ => none

def evaluateAll (env : Environment) : List Expression → Option (List Value)
  | [] => some []
  | e :: rest => do
    let v ← evaluate env e
    return v :: (← evaluateAll env rest)

def evaluateEntries (env : Environment) : List (String × Expression) → Option (List (String × Value))
  | [] => some []
  | (key, e) :: rest => do
    let v ← evaluate env e
    return (key, v) :: (← evaluateEntries env rest)

end

/-- The variable that tells where a loop is. -/
def position (index count : Nat) : Value :=
  .map [("first", .truth (index == 0)), ("index", .integer index), ("last", .truth (index + 1 == count))]

def loopName : String := "loop"

/-- The variables of each round of a loop. -/
def rounds? (names : LoopNames) (v : Value) : Option (List Scope) :=
  match names, v with
  | .item name, .list items =>
    some (items.zipIdx.map fun (v, i) => .round [(loopName, position i items.length), (name, v)])
  | .entry key value, .map entries =>
    some (entries.zipIdx.map fun ((k, v), i) =>
      .round [(loopName, position i entries.length), (key, .ofString k), (value, v)])
  | _, _ => none

def holds (negated : Bool) (v : Value) : Bool := v.isTrue != negated

mutual

def Node.render (env : Environment) : Node → Option (List Char)
  | .text value => some value
  | .output value formatter => do formatter.format (← evaluate env value)
  | .branch negated condition yes no => do
    let v ← evaluate env condition
    if holds negated v then renderAll env yes else renderAll env no
  | .loop names items body => do
    let rounds ← rounds? names (← evaluate env items)
    let texts ← rounds.mapM fun round => renderAll (env.push round) body
    return texts.flatten
  | .binding value name body => do
    let v ← evaluate env value
    renderAll (env.push (.binding name v)) body
  | .nested _ => none

def renderAll (env : Environment) : List Node → Option (List Char)
  | [] => some []
  | node :: rest => do
    let first ← node.render env
    let others ← renderAll env rest
    return first ++ others

end

def render (nodes : List Node) (globals : List (String × Value)) : Option String :=
  (renderAll (.ofGlobals globals) nodes).map String.ofList

end Template
end ShareIndex
