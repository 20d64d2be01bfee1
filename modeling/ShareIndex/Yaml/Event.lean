import ShareIndex.Yaml.Token

/-!
# ShareIndex.Yaml.Event

The structure of a YAML text as a sequence of events: scalars, the starts and ends of collections, and
references to earlier nodes.

* `Event`      — the events; a reference names its target by a value of `α`.
* `documents?` — the events of each document of a text, with anchors as targets.
-/

namespace ShareIndex
namespace Yaml

/-- What may stand before a node. -/
structure Properties where
  anchor : Option String
  tag : Option Tag
  deriving DecidableEq, Repr

def Properties.none : Properties := ⟨.none, .none⟩

inductive Event (α : Type) where
  | scalar (properties : Properties) (text : String) (style : Style)
  | sequenceStart (properties : Properties)
  | sequenceEnd
  | mappingStart (properties : Properties)
  | mappingEnd
  | reference (target : α)
  deriving DecidableEq, Repr

def Event.anchor? {α : Type} : Event α → Option String
  | scalar p _ _ => p.anchor
  | sequenceStart p => p.anchor
  | mappingStart p => p.anchor
  | _ => none

/-- What the handles of tags stand for. -/
abbrev Handles := List (String × Tag)

def defaultHandles : Handles := [("!", .bang), ("!!", .ofString "tag:yaml.org,2002:")]

/-- Events of the part that has been read, and the tokens after it. -/
abbrev Reading := Option (List (Event String) × List Token)

def empty (properties : Properties) : Event String := .scalar properties "" .plain

/-- Events before those of what is read next. -/
def Reading.after (events : List (Event String)) (r : Reading) : Reading :=
  r.map fun (more, rest) => (events ++ more, rest)

/-- A tag without its handle; an empty handle marks a whole tag. -/
def resolveTag (handles : Handles) (handle : String) (suffix : Tag) : Option Tag :=
  if handle = "" then some suffix else (handles.lookup handle).map (·.append suffix)

/-- Reads an anchor and a tag, in either order. -/
def properties (handles : Handles) : List Token → Option (Properties × List Token)
  | .anchor name :: .tag handle suffix :: rest
  | .tag handle suffix :: .anchor name :: rest => do
    return (⟨some name, some (← resolveTag handles handle suffix)⟩, rest)
  | .anchor name :: rest => some (⟨some name, none⟩, rest)
  | .tag handle suffix :: rest => do return (⟨none, some (← resolveTag handles handle suffix)⟩, rest)
  | rest => some (.none, rest)

mutual

/-- Reads a node. `inBlock` admits block collections, and `indentless` a sequence without a start token. -/
def node (handles : Handles) : Nat → Bool → Bool → List Token → Reading
  | 0, _, _, _ => none
  | fuel + 1, inBlock, indentless, tokens =>
    match tokens with
    | .alias name :: rest => some ([.reference name], rest)
    | _ => do
      let (p, rest) ← properties handles tokens
      match rest with
      | .entry :: _ =>
        if indentless then Reading.after [.sequenceStart p] (indentlessEntries handles fuel rest)
        else if p = .none then none
        else some ([empty p], rest)
      | .scalar text style :: rest => some ([.scalar p text style], rest)
      | .openSequence :: rest => Reading.after [.sequenceStart p] (flowEntries handles fuel true rest)
      | .openMapping :: rest => Reading.after [.mappingStart p] (flowPairs handles fuel true rest)
      | .blockSequence :: rest' =>
        if inBlock then Reading.after [.sequenceStart p] (blockEntries handles fuel rest')
        else if p = .none then none
        else some ([empty p], rest)
      | .blockMapping :: rest' =>
        if inBlock then Reading.after [.mappingStart p] (blockPairs handles fuel rest')
        else if p = .none then none
        else some ([empty p], rest)
      | _ => if p = .none then none else some ([empty p], rest)

def blockEntries (handles : Handles) : Nat → List Token → Reading
  | 0, _ => none
  | _ + 1, .blockEnd :: rest => some ([.sequenceEnd], rest)
  | fuel + 1, .entry :: rest =>
    match rest with
    | .entry :: _ | .blockEnd :: _ => Reading.after [empty .none] (blockEntries handles fuel rest)
    | _ => do
      let (events, rest) ← node handles fuel true false rest
      Reading.after events (blockEntries handles fuel rest)
  | _, _ => none

def indentlessEntries (handles : Handles) : Nat → List Token → Reading
  | 0, _ => none
  | fuel + 1, .entry :: rest =>
    match rest with
    | .entry :: _ | .key :: _ | .value :: _ | .blockEnd :: _ =>
      Reading.after [empty .none] (indentlessEntries handles fuel rest)
    | _ => do
      let (events, rest) ← node handles fuel true false rest
      Reading.after events (indentlessEntries handles fuel rest)
  | _, rest => some ([.sequenceEnd], rest)

def blockPairs (handles : Handles) : Nat → List Token → Reading
  | 0, _ => none
  | _ + 1, .blockEnd :: rest => some ([.mappingEnd], rest)
  | fuel + 1, .key :: rest =>
    match rest with
    | .key :: _ | .value :: _ | .blockEnd :: _ => Reading.after [empty .none] (blockValue handles fuel rest)
    | _ => do
      let (events, rest) ← node handles fuel true true rest
      Reading.after events (blockValue handles fuel rest)
  | _, _ => none

def blockValue (handles : Handles) : Nat → List Token → Reading
  | 0, _ => none
  | fuel + 1, .value :: rest =>
    match rest with
    | .key :: _ | .value :: _ | .blockEnd :: _ => Reading.after [empty .none] (blockPairs handles fuel rest)
    | _ => do
      let (events, rest) ← node handles fuel true true rest
      Reading.after events (blockPairs handles fuel rest)
  | fuel + 1, rest => Reading.after [empty .none] (blockPairs handles fuel rest)

/-- Reads the entries of a flow sequence; an entry may be a mapping of one pair. -/
def flowEntries (handles : Handles) : Nat → Bool → List Token → Reading
  | 0, _, _ => none
  | _ + 1, _, .closeSequence :: rest => some ([.sequenceEnd], rest)
  | fuel + 1, first, tokens => do
    let tokens ← match first, tokens with
      | true, tokens => some tokens
      | false, .separator :: rest => some rest
      | false, _ => none
    match tokens with
    | .closeSequence :: rest => some ([.sequenceEnd], rest)
    | .key :: rest =>
      let (key, rest) ← match rest with
        | .value :: rest | .separator :: rest | .closeSequence :: rest => some ([empty .none], rest)
        | _ => node handles fuel false false rest
      let (value, rest) ← match rest with
        | .value :: rest =>
          match rest with
          | .separator :: _ | .closeSequence :: _ => some ([empty .none], rest)
          | _ => node handles fuel false false rest
        | _ => some ([empty .none], rest)
      Reading.after (.mappingStart .none :: key ++ value ++ [.mappingEnd]) (flowEntries handles fuel false rest)
    | _ =>
      let (events, rest) ← node handles fuel false false tokens
      Reading.after events (flowEntries handles fuel false rest)

def flowPairs (handles : Handles) : Nat → Bool → List Token → Reading
  | 0, _, _ => none
  | _ + 1, _, .closeMapping :: rest => some ([.mappingEnd], rest)
  | fuel + 1, first, tokens => do
    let tokens ← match first, tokens with
      | true, tokens => some tokens
      | false, .separator :: rest => some rest
      | false, _ => none
    match tokens with
    | .closeMapping :: rest => some ([.mappingEnd], rest)
    | .key :: rest =>
      let (key, rest) ← match rest with
        | .value :: _ | .separator :: _ | .closeMapping :: _ => some ([empty .none], rest)
        | _ => node handles fuel false false rest
      let (value, rest) ← match rest with
        | .value :: rest =>
          match rest with
          | .separator :: _ | .closeMapping :: _ => some ([empty .none], rest)
          | _ => node handles fuel false false rest
        | _ => some ([empty .none], rest)
      Reading.after (key ++ value) (flowPairs handles fuel false rest)
    | _ =>
      let (key, rest) ← node handles fuel false false tokens
      Reading.after (key ++ [empty .none]) (flowPairs handles fuel false rest)

end

/-! ### Documents -/

/-- Reads the directives before a document; each handle is declared once. -/
def directives (versioned : Bool) (declared : Handles) : List Token → Option (Bool × Handles × List Token)
  | .version major minor :: rest =>
    if versioned || major != 1 || (minor != 1 && minor != 2) then none else directives true declared rest
  | .tagHandle handle start :: rest =>
    if (declared.lookup handle).isSome then none else directives versioned ((handle, start) :: declared) rest
  | rest => some (versioned, declared, rest)

def dropDocumentEnds : List Token → List Token
  | .documentEnd :: rest => dropDocumentEnds rest
  | rest => rest

def startsDocument : List Token → Bool
  | .version _ _ :: _ | .tagHandle _ _ :: _ | .documentStart :: _ => true
  | _ => false

/-- The content of a document after its start. -/
def content (handles : Handles) (fuel : Nat) (tokens : List Token) : Reading :=
  match tokens with
  | [] | .documentEnd :: _ => some ([empty .none], tokens)
  | _ => if startsDocument tokens then some ([empty .none], tokens) else node handles fuel true false tokens

/-- Reads documents, each after a start token; `bare` admits that the first one has none. -/
def documentsOf (fuel : Nat) : Nat → Bool → List Token → Option (List (List (Event String)))
  | 0, _, _ => none
  | left + 1, bare, tokens => do
    let tokens := if bare then tokens else dropDocumentEnds tokens
    if tokens.isEmpty then return []
    else if bare && !startsDocument tokens then
      let (events, rest) ← node defaultHandles fuel true false tokens
      return events :: (← documentsOf fuel left false rest)
    else
      let (_, declared, rest) ← directives false [] tokens
      match rest with
      | .documentStart :: rest =>
        let (events, rest) ← content (declared ++ defaultHandles) fuel rest
        return events :: (← documentsOf fuel left false rest)
      | _ => none

def documents? (text : List Char) : Option (List (List (Event String))) := do
  let tokens ← tokens? text
  documentsOf (4 * tokens.length + 8) (tokens.length + 2) true tokens

end Yaml
end ShareIndex
